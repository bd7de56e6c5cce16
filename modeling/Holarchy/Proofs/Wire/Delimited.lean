import Mathlib.Data.List.DropRight
import Holarchy.Proofs.Wire.RoundTrip
/-!
# Envelopes show where they end

A text that breaks off before its last brace has ended too early, wherever that is, and a text with more behind its last
brace is no envelope.  So of two envelopes in a row none is taken for the other, and no part of one for all of it.
-/
namespace Holarchy.Wire

open Json

variable {α : Type} {read : Reader α} {a : α} {w : List Char} {d : Document} {p s t : List Char}

theorem isWhiteSpace_of_isBlank {c : Char} (h : isBlank c = true) : isWhiteSpace c = true := by
  simp only [isBlank, Bool.or_eq_true, decide_eq_true_eq] at h
  rcases h with ((rfl | rfl) | rfl) | rfl <;> decide

/-- A text that begins with no white space loses none in front. -/
theorem trim_eq_rdropWhile (h : ∀ c ∈ p.head?, isWhiteSpace c = false) : trim p = p.rdropWhile isWhiteSpace := by
  have hfront : p.dropWhile isWhiteSpace = p := by
    cases p with
    | nil => rfl
    | cons c p => exact List.dropWhile_cons_of_neg (by simp [h c rfl])
  rw [trim, hfront, List.rdropWhile]

theorem rdropWhile_append_of_exists {P : Char → Bool} (w : List Char) (ht : ∃ c ∈ t, P c = false) :
    (w ++ t).rdropWhile P = w ++ t.rdropWhile P := by
  have hback : (t.reverse.dropWhile P).isEmpty = false := by
    obtain ⟨c, hc, hspace⟩ := ht
    rw [Bool.eq_false_iff, ne_eq, List.isEmpty_iff, List.dropWhile_eq_nil_iff]
    intro hall
    rw [hall c (List.mem_reverse.2 hc)] at hspace
    cases hspace
  rw [List.rdropWhile, List.rdropWhile, List.reverse_append, List.dropWhile_append, hback]
  simp

/-- What is left of a text that is not all white space ends with something else, and so is more than blanks. -/
theorem skipBlanks_rdropWhile (ht : ∃ c ∈ t, isWhiteSpace c = false) :
    ∃ c r, skipBlanks (t.rdropWhile isWhiteSpace) = c :: r := by
  refine List.exists_cons_of_ne_nil fun hblank => ?_
  have hne : t.rdropWhile isWhiteSpace ≠ [] := by
    obtain ⟨c, hc, hspace⟩ := ht
    intro hnil
    rw [List.rdropWhile_eq_nil_iff.1 hnil c hc] at hspace
    cases hspace
  have hlast := List.rdropWhile_last_not isWhiteSpace t hne
  exact hlast (isWhiteSpace_of_isBlank (List.dropWhile_eq_nil_iff.1 hblank _ (List.getLast_mem hne)))

theorem exists_eq_brace_cons (h : Enclosed read a w d) : ∃ w', w = '\x7b' :: w' := by
  obtain ⟨t, rfl⟩ := h.braces h.laid
  exact ⟨_, rfl⟩

/-- **A text that breaks off has ended too early.** -/
theorem decode_cut (h : Enclosed read a w d) (hcut : w = p ++ s) (hs : s ≠ []) :
    decode read (String.ofList p) = .error .unexpectedEnd := by
  have hstart : ∀ c ∈ p.head?, isWhiteSpace c = false := by
    obtain ⟨w, rfl⟩ := exists_eq_brace_cons h
    intro c hc
    rcases List.cons_eq_append_iff.1 hcut with ⟨rfl, -⟩ | ⟨p, rfl, -⟩
    · cases hc
    · cases hc
      decide
  -- What is trimmed off the part is cut off the whole as well.
  obtain ⟨b, hb⟩ : trim p <+: p := by
    rw [trim_eq_rdropWhile hstart]
    exact List.rdropWhile_prefix _ _
  obtain ⟨what, hended⟩ := h.stops (p := trim p) (s := b ++ s) (by rw [← List.append_assoc, hb, hcut]) (by simp [hs])
  simp only [decode, String.toList_ofList, readWhole, hended]
  split <;> rfl

/-- **A text with anything but white space behind it is malformed.** -/
theorem decode_followed (h : Enclosed read a w d) (ht : ∃ c ∈ t, isWhiteSpace c = false) :
    ∃ position, decode read (String.ofList (w ++ t)) = .error (.invalidJson position .trailingCharacters) := by
  have hread : read (w ++ t.rdropWhile isWhiteSpace) = .ok (a, t.rdropWhile isWhiteSpace) := h.meets h.laid _
  obtain ⟨c, r, hrest⟩ := skipBlanks_rdropWhile ht
  obtain ⟨w, rfl⟩ := exists_eq_brace_cons h
  have htrim : trim ('\x7b' :: w ++ t) = '\x7b' :: (w ++ t.rdropWhile isWhiteSpace) := by
    rw [trim_eq_rdropWhile (by rintro c ⟨⟩; decide), rdropWhile_append_of_exists _ ht, List.cons_append]
  refine ⟨(Place.on (c :: r)).position ('\x7b' :: (w ++ t.rdropWhile isWhiteSpace)), ?_⟩
  rw [List.cons_append] at hread
  rw [decode_eq htrim, readWhole, hread]
  simp only [hrest]
  rfl

/-- **An envelope shows where it ends.**  Of its encoding any part that breaks off, within a string, an escape, a
number, a word or a name or between them, has ended too early; white space around it does not matter; and anything else
behind it makes it malformed.  So no message that was cut off, and none that another follows, is taken for a complete
one. -/
theorem envelopes_show_their_end :
    (∀ r : DanceRequest,
      (∀ p s, (encodeRequest r).toList = p ++ s → s ≠ [] → decodeRequest (String.ofList p) = .error .unexpectedEnd) ∧
      (∀ b b', WhiteSpace b → WhiteSpace b' →
        decodeRequest (String.ofList (b ++ ((encodeRequest r).toList ++ b'))) = .ok r) ∧
      ∀ t, (∃ c ∈ t, isWhiteSpace c = false) → ∃ position,
        decodeRequest (String.ofList ((encodeRequest r).toList ++ t)) =
          .error (.invalidJson position .trailingCharacters)) ∧
    (∀ r : DanceResponse,
      (∀ p s, (encodeResponse r).toList = p ++ s → s ≠ [] → decodeResponse (String.ofList p) = .error .unexpectedEnd) ∧
      (∀ b b', WhiteSpace b → WhiteSpace b' →
        decodeResponse (String.ofList (b ++ ((encodeResponse r).toList ++ b'))) = .ok r) ∧
      ∀ t, (∃ c ∈ t, isWhiteSpace c = false) → ∃ position,
        decodeResponse (String.ofList ((encodeResponse r).toList ++ t)) =
          .error (.invalidJson position .trailingCharacters)) := by
  simp only [encodeRequest, encodeResponse, String.toList_ofList]
  refine ⟨fun r => ?_, fun r => ?_⟩
  · have h := enclosed_request r
    exact ⟨fun p s hcut hs => decode_cut h hcut hs, fun b b' hb hb' => decode_laid h h.laid hb hb',
      fun t ht => decode_followed h ht⟩
  · have h := enclosed_response r
    exact ⟨fun p s hcut hs => decode_cut h hcut hs, fun b b' hb hb' => decode_laid h h.laid hb hb',
      fun t ht => decode_followed h ht⟩

theorem envelopes_show_their_end_of_short_response :
    decodeResponse (String.ofList ['\x7b', '"', 's', 'p', 'a', 'c', 'e', '_']) = .error .unexpectedEnd ∧
    decodeResponse (String.ofList (['\u2003'] ++
      ((encodeResponse ⟨⟨"s"⟩, .ok, "d", .none, none, none⟩).toList ++ ['\u3000', '\n']))) =
        .ok ⟨⟨"s"⟩, .ok, "d", .none, none, none⟩ ∧
    ∃ position, decodeResponse (String.ofList ((encodeResponse ⟨⟨"s"⟩, .ok, "d", .none, none, none⟩).toList ++
      [' ', '\x7b'])) = .error (.invalidJson position .trailingCharacters) := by
  obtain ⟨hcut, hspace, hfollowed⟩ := envelopes_show_their_end.2 ⟨⟨"s"⟩, .ok, "d", .none, none, none⟩
  have hfront : WhiteSpace ['\u2003'] := List.forall_mem_singleton.2 (by decide)
  have hback : WhiteSpace ['\u3000', '\n'] :=
    List.forall_mem_cons.2 ⟨by decide, List.forall_mem_singleton.2 (by decide)⟩
  refine ⟨hcut _ ((encodeResponse ⟨⟨"s"⟩, .ok, "d", .none, none, none⟩).toList.drop 8) ?_ ?_,
    hspace _ _ hfront hback, hfollowed _ ⟨'\x7b', by decide, by decide⟩⟩
  all_goals rw [encodeResponse, String.toList_ofList]
  · rfl
  · exact List.cons_ne_nil _ _

end Holarchy.Wire
