import Holarchy.Proofs.Wire.Documents
import Holarchy.Wire.Codec
/-!
# Envelopes are read back

White space around an envelope is put aside, and what is left is read to its end.
-/
namespace Holarchy.Wire

open Json

def WhiteSpace (b : List Char) : Prop := ∀ c ∈ b, isWhiteSpace c = true

theorem whiteSpace_nil : WhiteSpace [] := nofun

theorem trim_braces {b b' : List Char} (hb : WhiteSpace b) (hb' : WhiteSpace b') (t : List Char) :
    trim (b ++ ('\x7b' :: (t ++ ['\x7d']) ++ b')) = '\x7b' :: (t ++ ['\x7d']) := by
  have hopen : isWhiteSpace '\x7b' = false := by decide
  have hclose : isWhiteSpace '\x7d' = false := by decide
  have hreverse : ∀ c ∈ b'.reverse, isWhiteSpace c = true := fun c hc => hb' c (List.mem_reverse.1 hc)
  rw [trim, List.dropWhile_append_of_pos hb, List.cons_append, List.dropWhile_cons_of_neg (by simp [hopen]),
    ← List.cons_append, List.reverse_append, List.dropWhile_append_of_pos hreverse]
  simp [hclose]

section Decode

variable {α : Type} {read : Reader α} {a : α} {w : List Char} {d : Document} {b b' t : List Char}

theorem decode_eq {text : List Char} (h : trim text = '\x7b' :: t) : decode read (String.ofList text) =
    match readWhole read ('\x7b' :: t) with
    | .error f => .error (.ofFault ('\x7b' :: t) f)
    | .ok a => .ok a := by
  simp only [decode, String.toList_ofList, h]
  rfl

/-- **A text without a flaw is decoded to the value**, whatever white space is around it. -/
theorem decode_laid (h : Enclosed read a w d) (ht : Lays d true t) (hb : WhiteSpace b) (hb' : WhiteSpace b') :
    decode read (String.ofList (b ++ (t ++ b'))) = .ok a := by
  have hread : read (t ++ []) = .ok (a, []) := h.meets ht []
  rw [List.append_nil] at hread
  obtain ⟨t, rfl⟩ := h.braces ht
  rw [decode_eq (trim_braces hb hb' t), readWhole, hread]
  rfl

theorem decode_written (h : Enclosed read a w d) : decode read (String.ofList w) = .ok a := by
  simpa using decode_laid h h.laid whiteSpace_nil whiteSpace_nil

end Decode

theorem decodeRequest_encodeRequest (r : DanceRequest) : decodeRequest (encodeRequest r) = .ok r :=
  decode_written (enclosed_request r)

theorem decodeResponse_encodeResponse (r : DanceResponse) : decodeResponse (encodeResponse r) = .ok r :=
  decode_written (enclosed_response r)

/-- **Every envelope is read back from its text, whatever stands in it.**  So a text that was accepted, in whatever
form, gives the same envelope once more after it has been written again. -/
theorem envelopes_are_read_back :
    (∀ r, decodeRequest (encodeRequest r) = .ok r) ∧ (∀ r, decodeResponse (encodeResponse r) = .ok r) ∧
      (∀ text, (decodeRequest text >>= fun r => decodeRequest (encodeRequest r)) = decodeRequest text) ∧
      (∀ text, (decodeResponse text >>= fun r => decodeResponse (encodeResponse r)) = decodeResponse text) := by
  refine ⟨decodeRequest_encodeRequest, decodeResponse_encodeResponse, fun text => ?_, fun text => ?_⟩
  · simp only [decodeRequest_encodeRequest]
    exact bind_pure _
  · simp only [decodeResponse_encodeResponse]
    exact bind_pure _

end Holarchy.Wire
