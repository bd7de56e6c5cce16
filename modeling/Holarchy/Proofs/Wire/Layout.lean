import Holarchy.Proofs.Wire.RoundTrip
/-!
# Envelopes are decoded by what they say

The texts of an envelope are those of its document, of which the encoding is one.  They all are decoded to the envelope,
and all of them that have a flaw are refused because of it.
-/
namespace Holarchy.Wire

open Json

variable {α : Type} {read : Reader α} {a : α} {w : List Char} {d : Document} {b t b' : List Char}

/-- A text in which a record lacks a field or has it twice is refused for that, wherever in it this is. -/
theorem decode_flawed (h : Enclosed read a w d) (ht : Lays d false t) (hb : WhiteSpace b) (hb' : WhiteSpace b') :
    ∃ position m, m.OfFields ∧ decode read (String.ofList (b ++ (t ++ b'))) = .error (.invalidEnvelope position m) := by
  obtain ⟨⟨⟩, -⟩ | ⟨-, m, rest, settled, hm, hread⟩ := (h.meets ht []).cases
  rw [List.append_nil] at hread
  obtain ⟨t, rfl⟩ := h.braces ht
  refine ⟨(Place.before rest).position ('\x7b' :: (t ++ ['\x7d'])), m, hm, ?_⟩
  rw [decode_eq (trim_braces hb hb' t), readWhole, hread]
  rfl

/-- **What an envelope is decoded to depends on what its text says, not on how.**  Members of objects may come in any
order, blanks may stand between tokens, characters may be escaped, records may have members that are none of their
fields, and what can be left out may be left out when it is `null`: the envelope is the same.  But if a record anywhere
lacks a field that it must have, or has a field twice, there is no envelope. -/
theorem envelopes_are_decoded_by_content :
    (∀ r : DanceRequest, Lays (documentRequest r) true (encodeRequest r).toList ∧
      ∀ b t b' : List Char, WhiteSpace b → WhiteSpace b' →
        (Lays (documentRequest r) true t → decodeRequest (String.ofList (b ++ (t ++ b'))) = .ok r) ∧
        (Lays (documentRequest r) false t → ∃ position m, m.OfFields ∧
          decodeRequest (String.ofList (b ++ (t ++ b'))) = .error (.invalidEnvelope position m))) ∧
    (∀ r : DanceResponse, Lays (documentResponse r) true (encodeResponse r).toList ∧
      ∀ b t b' : List Char, WhiteSpace b → WhiteSpace b' →
        (Lays (documentResponse r) true t → decodeResponse (String.ofList (b ++ (t ++ b'))) = .ok r) ∧
        (Lays (documentResponse r) false t → ∃ position m, m.OfFields ∧
          decodeResponse (String.ofList (b ++ (t ++ b'))) = .error (.invalidEnvelope position m))) := by
  refine ⟨fun r => ⟨?_, fun b t b' hb hb' => ⟨fun ht => ?_, fun ht => ?_⟩⟩,
    fun r => ⟨?_, fun b t b' hb hb' => ⟨fun ht => ?_, fun ht => ?_⟩⟩⟩
  · rw [encodeRequest, String.toList_ofList]
    exact (enclosed_request r).laid
  · exact decode_laid (enclosed_request r) ht hb hb'
  · exact decode_flawed (enclosed_request r) ht hb hb'
  · rw [encodeResponse, String.toList_ofList]
    exact (enclosed_response r).laid
  · exact decode_laid (enclosed_response r) ht hb hb'
  · exact decode_flawed (enclosed_response r) ht hb hb'

/-- The members of a response without a descriptor or a session, in another order, one of them escaped, one not read. -/
def looseMembers : List (String × Piece) :=
  [("body", .laid ⟨.text "None", true, writeString "None"⟩), ("hint", .loose writeNull),
    ("description", .laid ⟨.text "d", true, ['"', '\\', 'u', '0', '0', '6', '4', '"']⟩),
    ("status_code", .laid ⟨.text "OK", true, writeString "OK"⟩), ("space_id", .laid ⟨.text "s", true, writeString "s"⟩)]

theorem lays_looseMembers : ∀ name p, (name, Piece.laid p) ∈ looseMembers → Lays p.document p.whole p.text := by
  intro name p hp
  simp only [looseMembers, List.mem_cons, Prod.mk.injEq, Piece.laid.injEq, reduceCtorEq, and_false, List.not_mem_nil,
    or_false, false_or] at hp
  rcases hp with ⟨-, rfl⟩ | ⟨-, rfl⟩ | ⟨-, rfl⟩ | ⟨-, rfl⟩
  · exact .text (quotes_writeString _)
  · have hd : Hex4 'd'.toNat ['0', '0', '6', '4'] := hex4_hex (by decide)
    exact .text ⟨_, .unicode hd .nil, rfl⟩
  · exact .text (quotes_writeString _)
  · exact .text (quotes_writeString _)

theorem arranged_looseMembers {fields : List (String × Presence × Document)}
    (hfields : documentResponse ⟨⟨"s"⟩, .ok, "d", .none, none, none⟩ = .record fields) {pieces : List (String × Piece)}
    (h : ∀ p ∈ pieces, p ∈ looseMembers) : Arranged fields pieces := by
  cases hfields
  refine ⟨fun name p hp => ?_, fun before name w after hp => ?_, fun name d hfield hmissing => ?_⟩
  · have hp := h _ hp
    simp only [looseMembers, List.mem_cons, Prod.mk.injEq, Piece.laid.injEq, reduceCtorEq, and_false, List.not_mem_nil,
      or_false, false_or] at hp
    refine ⟨.required, ?_⟩
    rcases hp with ⟨rfl, rfl⟩ | ⟨rfl, rfl⟩ | ⟨rfl, rfl⟩ | ⟨rfl, rfl⟩ <;> simp [documentResponseBody, Status.name]
  · have hp := h (name, .loose w) (by simp [hp])
    simp only [looseMembers, List.mem_cons, Prod.mk.injEq, Piece.loose.injEq, reduceCtorEq, and_false, List.not_mem_nil,
      or_false, false_or] at hp
    obtain ⟨rfl, rfl⟩ := hp
    exact ⟨.null, fun hin => by simp at hin⟩
  · simp only [List.mem_cons, Prod.mk.injEq, reduceCtorEq, false_and, and_false, List.not_mem_nil, or_false,
      false_or] at hfield
    rcases hfield with ⟨-, -, rfl⟩ | ⟨-, -, rfl⟩ <;> rfl

theorem envelopes_are_decoded_by_content_of_looseMembers :
    (Lays (documentResponse ⟨⟨"s"⟩, .ok, "d", .none, none, none⟩) true
        (writeObject (looseMembers.map fun p => (p.1, p.2.text))) ∧
      decodeResponse (String.ofList (['\t'] ++ (writeObject (looseMembers.map fun p => (p.1, p.2.text)) ++ ['\n']))) =
        .ok ⟨⟨"s"⟩, .ok, "d", .none, none, none⟩) ∧
    (Lays (documentResponse ⟨⟨"s"⟩, .ok, "d", .none, none, none⟩) false
        (writeObject (looseMembers.tail.map fun p => (p.1, p.2.text))) ∧
      ∃ position m, m.OfFields ∧ decodeResponse (String.ofList ([] ++
        (writeObject (looseMembers.tail.map fun p => (p.1, p.2.text)) ++ []))) =
          .error (.invalidEnvelope position m)) := by
  have htail : ∀ p ∈ looseMembers.tail, p ∈ looseMembers := fun p hp => List.mem_of_mem_tail hp
  have hspace : WhiteSpace ['\t'] ∧ WhiteSpace ['\n'] := by
    constructor <;> exact List.forall_mem_singleton.2 (by decide)
  have hwhole : Lays (documentResponse ⟨⟨"s"⟩, .ok, "d", .none, none, none⟩) true
      (writeObject (looseMembers.map fun p => (p.1, p.2.text))) := by
    refine .record lays_looseMembers (arranged_looseMembers rfl fun _ => id) ⟨?_, fun name d hfield => ?_, ?_⟩
      (series_writeMember (fun p : String × Piece => (p.1, p.2.text)) looseMembers)
    · decide
    · simp only [List.mem_cons, Prod.mk.injEq, reduceCtorEq, false_and, and_false, List.not_mem_nil, or_false] at hfield
      rcases hfield with ⟨rfl, -⟩ | ⟨rfl, -⟩ | ⟨rfl, -⟩ | ⟨rfl, -⟩ <;> decide
    · intro name p hp
      simp only [looseMembers, List.mem_cons, Prod.mk.injEq, Piece.laid.injEq, reduceCtorEq, and_false,
        List.not_mem_nil, or_false, false_or] at hp
      rcases hp with ⟨-, rfl⟩ | ⟨-, rfl⟩ | ⟨-, rfl⟩ | ⟨-, rfl⟩ <;> rfl
  have hflawed : Lays (documentResponse ⟨⟨"s"⟩, .ok, "d", .none, none, none⟩) false
      (writeObject (looseMembers.tail.map fun p => (p.1, p.2.text))) := by
    refine .flawed (fun name p hp => lays_looseMembers name p (htail _ hp)) (arranged_looseMembers rfl htail)
      (fun hfaultless => ?_) (series_writeMember (fun p : String × Piece => (p.1, p.2.text)) looseMembers.tail)
    have hbody := hfaultless.there "body" (.text "None") (by simp [documentResponseBody])
    revert hbody
    decide
  have h := envelopes_are_decoded_by_content.2 ⟨⟨"s"⟩, .ok, "d", .none, none, none⟩
  exact ⟨⟨hwhole, (h.2 _ _ _ hspace.1 hspace.2).1 hwhole⟩, hflawed,
    (h.2 _ _ _ whiteSpace_nil whiteSpace_nil).2 hflawed⟩

end Holarchy.Wire
