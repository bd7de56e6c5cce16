import Mathlib.Data.List.Basic
import Holarchy.Session
/-!
# The numbers of a session

Numbers are given out to dances and used up by cancellations, all from one counter.  A dance is the latest as long as
nothing has been taken from the counter since its number was; as the counter only rises, a number that is no longer the
latest never becomes so again, and an answer under it is never taken over.
-/
namespace Holarchy

namespace Session

/-- What can be done to a session before, during and after a dance. -/
inductive Operation where
  | begin
  | finish
  | nextSeq
  | isCurrent (seq : UInt64)
  | cancelInFlight
  | install (seq : UInt64) (next : SessionState)

/-- What an operation answers, if anything. -/
inductive Answer where
  | nothing
  | issued (seq : UInt64)
  | current (yes : Bool)
  | cancelled (seq? : Option UInt64)
  | installed (yes : Bool)

/-- How many numbers were taken from the counter for an answer: one was given out, or a cancellation used it up. -/
def Answer.uses : Answer → Nat
  | .issued _ | .cancelled (some _) => 1
  | .nothing | .current _ | .cancelled none | .installed _ => 0

def perform (s : Session) : Operation → Answer × Session
  | .begin => (.nothing, s.begin)
  | .finish => (.nothing, s.finish)
  | .nextSeq => (.issued s.nextSeq.1, s.nextSeq.2)
  | .isCurrent seq => (.current (s.isCurrent seq), s)
  | .cancelInFlight => (.cancelled s.cancelInFlight.1, s.cancelInFlight.2)
  | .install seq next => (.installed (s.install seq next).1, (s.install seq next).2)

def after (s : Session) (ops : List Operation) : Session := ops.foldl (fun s op => (s.perform op).2) s

/-- The operations of a run with their answers. -/
abbrev Trace := List (Operation × Answer)

def trace (s : Session) : List Operation → Trace
  | [] => []
  | op :: ops => (op, (s.perform op).1) :: (s.perform op).2.trace ops

namespace Trace

/-- How many numbers were taken from the counter. -/
def used : Trace → Nat
  | [] => 0
  | d :: t => d.2.uses + used t

/-- The numbers that were given out, in order. -/
def numbers (t : Trace) : List UInt64 :=
  t.filterMap fun d =>
    match d.2 with
    | .issued seq => some seq
    | _ => none

/-- The number was given out, and since then no other was, nor was any used up. -/
def Latest (t : Trace) (seq : UInt64) : Prop :=
  ∃ earlier op later, t = earlier ++ (op, .issued seq) :: later ∧ ∀ d ∈ later, d.2.uses = 0

/-- The state that was taken over last, or else the one from the start. -/
def lastInstalled (t : Trace) (start : SessionState) : SessionState :=
  t.foldl (fun state d =>
    match d with
    | (.install _ next, .installed true) => next
    | _ => state) start

variable {t t' : Trace} {seq : UInt64}

theorem used_append (t t' : Trace) : used (t ++ t') = used t + used t' := by
  induction t with
  | nil => exact (Nat.zero_add _).symm
  | cons d t ih => rw [List.cons_append, used, ih, used, Nat.add_assoc]

theorem used_eq_zero_iff : used t = 0 ↔ ∀ d ∈ t, d.2.uses = 0 := by
  induction t with
  | nil => simp [used]
  | cons d t ih =>
    rw [used, Nat.add_eq_zero_iff, ih, List.forall_mem_cons]

theorem mem_numbers_iff : seq ∈ numbers t ↔ ∃ earlier op later, t = earlier ++ (op, .issued seq) :: later := by
  simp only [numbers, List.mem_filterMap]
  constructor
  · rintro ⟨⟨op, a⟩, hmem, hseq⟩
    obtain ⟨earlier, later, rfl⟩ := List.append_of_mem hmem
    cases a <;> cases hseq
    exact ⟨earlier, op, later, rfl⟩
  · rintro ⟨earlier, op, later, rfl⟩
    exact ⟨(op, .issued seq), by simp, rfl⟩

end Trace

open Trace

variable {s : Session} {ops before rest : List Operation} {seq : UInt64}

theorem trace_append (s : Session) (before rest : List Operation) :
    s.trace (before ++ rest) = s.trace before ++ (s.after before).trace rest := by
  induction before generalizing s with
  | nil => rfl
  | cons op before ih => rw [List.cons_append, trace, ih]; rfl

theorem install_fst (s : Session) (seq : UInt64) (next : SessionState) : (s.install seq next).1 = s.isCurrent seq := by
  unfold install
  split
  · rename_i hcurrent
    exact hcurrent.symm
  · rename_i hstale
    exact (Bool.eq_false_iff.2 hstale).symm

/-- **One operation moves the counter by what it takes from it.** -/
theorem issued_perform (s : Session) (op : Operation) :
    (s.perform op).2.issued = s.issued + .ofNat (s.perform op).1.uses := by
  have hkept : s.issued = s.issued + .ofNat 0 := (UInt64.add_zero _).symm
  cases op with
  | cancelInFlight =>
    simp only [perform, cancelInFlight]
    split
    · rfl
    · exact hkept
  | install seq next =>
    simp only [perform, install]
    split <;> exact hkept
  | nextSeq => rfl
  | begin | finish | isCurrent => exact hkept

theorem issued_after (s : Session) (ops : List Operation) :
    (s.after ops).issued = s.issued + .ofNat (used (s.trace ops)) := by
  induction ops generalizing s with
  | nil => exact (UInt64.add_zero _).symm
  | cons op ops ih =>
    have hrest : (s.after (op :: ops)).issued = _ := ih (s.perform op).2
    rw [hrest, issued_perform, UInt64.add_assoc, ← UInt64.ofNat_add]
    rfl

/-- A number is given out with the count of what has been taken until then, itself included. -/
theorem eq_of_trace_eq {earlier later : Trace} {op : Operation}
    (h : s.trace ops = earlier ++ (op, .issued seq) :: later) : seq = s.issued + .ofNat (used earlier + 1) := by
  induction earlier generalizing s ops with
  | nil =>
    cases ops with
    | nil => cases h
    | cons op' ops =>
      obtain ⟨hop, -⟩ := List.cons.inj h
      obtain ⟨rfl, hanswer⟩ := Prod.mk.inj hop
      cases op' <;> cases hanswer
      rfl
  | cons d earlier ih =>
    cases ops with
    | nil => cases h
    | cons op' ops =>
      obtain ⟨rfl, hrest⟩ := List.cons.inj h
      rw [ih hrest, issued_perform, UInt64.add_assoc, ← UInt64.ofNat_add, ← Nat.add_assoc]
      rfl

/-- **The state is the one that was taken over last.** -/
theorem state_after (s : Session) (ops : List Operation) :
    (s.after ops).state = (s.trace ops).lastInstalled s.state := by
  induction ops generalizing s with
  | nil => rfl
  | cons op ops ih =>
    refine (ih (s.perform op).2).trans ?_
    -- What is taken over is the state from which the rest goes on.
    suffices hstep : (s.perform op).2.state = lastInstalled [(op, (s.perform op).1)] s.state by
      rw [hstep]
      rfl
    cases op with
    | install seq next =>
      simp only [perform, install]
      split <;> rfl
    | cancelInFlight =>
      simp only [perform, cancelInFlight]
      split <;> rfl
    | _ => rfl

section Start

variable {state : SessionState} {space : SpaceId} {capacity : Nat}

theorem issued_start_after (ops : List Operation) :
    ((start state space capacity).after ops).issued = .ofNat (used ((start state space capacity).trace ops)) :=
  (issued_after _ ops).trans (UInt64.zero_add _)

/-- The count with which a number was given out. -/
theorem toNat_of_trace_eq {earlier later : Trace} {op : Operation}
    (hroom : used ((start state space capacity).trace ops) < UInt64.size)
    (h : (start state space capacity).trace ops = earlier ++ (op, .issued seq) :: later) :
    seq.toNat = used earlier + 1 ∧ used ((start state space capacity).trace ops) = used earlier + 1 + used later := by
  have hused : used ((start state space capacity).trace ops) = used earlier + 1 + used later := by
    rw [h, used_append]
    simp only [used, Answer.uses]
    omega
  refine ⟨?_, hused⟩
  have hseq : seq = .ofNat (used earlier + 1) := (eq_of_trace_eq h).trans (UInt64.zero_add _)
  rw [hseq]
  exact UInt64.toNat_ofNat_of_lt' (by omega)

theorem isCurrent_iff_toNat (hroom : used ((start state space capacity).trace ops) < UInt64.size) :
    ((start state space capacity).after ops).isCurrent seq = true ↔
      used ((start state space capacity).trace ops) = seq.toNat := by
  rw [isCurrent, decide_eq_true_eq, issued_start_after, ← UInt64.toNat_inj, UInt64.toNat_ofNat_of_lt' hroom]

/-- **A number is current just as long as it is the latest.** -/
theorem isCurrent_iff_latest (hroom : used ((start state space capacity).trace ops) < UInt64.size)
    (hissued : seq ∈ numbers ((start state space capacity).trace ops)) :
    ((start state space capacity).after ops).isCurrent seq = true ↔
      Latest ((start state space capacity).trace ops) seq := by
  rw [isCurrent_iff_toNat hroom]
  constructor
  · intro hcount
    obtain ⟨earlier, op, later, h⟩ := mem_numbers_iff.1 hissued
    obtain ⟨hseq, hused⟩ := toNat_of_trace_eq hroom h
    exact ⟨earlier, op, later, h, used_eq_zero_iff.1 (by omega)⟩
  · rintro ⟨earlier, op, later, h, hlater⟩
    obtain ⟨hseq, hused⟩ := toNat_of_trace_eq hroom h
    rw [hused, hseq, used_eq_zero_iff.2 hlater]

theorem le_used_of_mem_numbers (hroom : used ((start state space capacity).trace ops) < UInt64.size)
    (hissued : seq ∈ numbers ((start state space capacity).trace ops)) :
    seq.toNat ≤ used ((start state space capacity).trace ops) := by
  obtain ⟨earlier, op, later, h⟩ := mem_numbers_iff.1 hissued
  obtain ⟨hseq, hused⟩ := toNat_of_trace_eq hroom h
  omega

theorem used_trace_append (s : Session) (before rest : List Operation) :
    used (s.trace before) ≤ used (s.trace (before ++ rest)) := by
  rw [trace_append, used_append]
  exact Nat.le_add_right _ _

/-- **What is not current any more never is again.** -/
theorem isCurrent_append_eq_false (hroom : used ((start state space capacity).trace (before ++ rest)) < UInt64.size)
    (hissued : seq ∈ numbers ((start state space capacity).trace before))
    (hstale : ((start state space capacity).after before).isCurrent seq = false) :
    ((start state space capacity).after (before ++ rest)).isCurrent seq = false := by
  have hle := used_trace_append (start state space capacity) before rest
  have hroom' := Nat.lt_of_le_of_lt hle hroom
  have hseq := le_used_of_mem_numbers hroom' hissued
  rw [← Bool.not_eq_true, isCurrent_iff_toNat hroom'] at hstale
  rw [← Bool.not_eq_true, isCurrent_iff_toNat hroom]
  omega

end Start

/-- **Numbers are given out in rising order**, as long as the counter does not come around. -/
theorem numbers_rise (hroom : s.issued.toNat + used (s.trace ops) < UInt64.size) :
    (numbers (s.trace ops)).Pairwise (· < ·) ∧ ∀ seq ∈ numbers (s.trace ops), s.issued < seq := by
  induction ops generalizing s with
  | nil => exact ⟨.nil, nofun⟩
  | cons op ops ih =>
    have hused : used (s.trace (op :: ops)) = (s.perform op).1.uses + used ((s.perform op).2.trace ops) := rfl
    have hnext : (s.perform op).2.issued.toNat = s.issued.toNat + (s.perform op).1.uses := by
      rw [issued_perform, UInt64.toNat_add, UInt64.toNat_ofNat_of_lt' (by omega), Nat.mod_eq_of_lt]
      exact Nat.lt_of_le_of_lt (by omega) hroom
    obtain ⟨hrises, hbeyond⟩ := ih (s := (s.perform op).2) (by omega)
    cases hop : (s.perform op).1 with
    | issued seq =>
      have hseq : seq = (s.perform op).2.issued := by
        cases op <;> cases hop
        rfl
      have hnumbers : numbers (s.trace (op :: ops)) = seq :: numbers ((s.perform op).2.trace ops) := by
        simp only [trace, numbers, hop, List.filterMap_cons]
      have hstep : s.issued < seq := by
        rw [hseq, UInt64.lt_iff_toNat_lt, hnext, hop]
        exact Nat.lt_succ_self _
      rw [hnumbers]
      refine ⟨List.pairwise_cons.2 ⟨fun later hlater => hseq ▸ hbeyond later hlater, hrises⟩, ?_⟩
      refine List.forall_mem_cons.2 ⟨hstep, fun later hlater => ?_⟩
      exact UInt64.lt_trans hstep (hseq ▸ hbeyond later hlater)
    | _ =>
      have hnumbers : numbers (s.trace (op :: ops)) = numbers ((s.perform op).2.trace ops) := by
        simp only [trace, numbers, hop, List.filterMap_cons]
      have hle : s.issued ≤ (s.perform op).2.issued := by
        rw [UInt64.le_iff_toNat_le, hnext]
        exact Nat.le_add_right _ _
      rw [hnumbers]
      exact ⟨hrises, fun later hlater => UInt64.lt_of_le_of_lt hle (hbeyond later hlater)⟩

/-- **A stale number stays stale.**  Whatever is done to a session, as long as its counter does not come around: the
numbers that are given out rise; an answer under one of them is taken over just if no other was given out since, and no
cancellation used one up; once such a number is not current, it is not at any later time; and the state is always the
one that was taken over last, or that of the start if none was. -/
theorem stale_numbers_stay_stale (state : SessionState) (space : SpaceId) (capacity : Nat) (ops : List Operation)
    (hroom : used ((start state space capacity).trace ops) < UInt64.size)
    (hgiven : ∀ before seq next rest, ops = before ++ .install seq next :: rest →
      seq ∈ numbers ((start state space capacity).trace before)) :
    let s := start state space capacity
    (numbers (s.trace ops)).Pairwise (· < ·) ∧
      (∀ before seq next rest, ops = before ++ .install seq next :: rest →
        (((s.after before).install seq next).1 = true ↔ Latest (s.trace before) seq)) ∧
      (∀ before between rest seq, ops = before ++ between ++ rest → seq ∈ numbers (s.trace before) →
        (s.after before).isCurrent seq = false → (s.after (before ++ between)).isCurrent seq = false) ∧
      ∀ before rest, ops = before ++ rest → (s.after before).state = (s.trace before).lastInstalled state := by
  intro s
  have hroomAt {before rest : List Operation} (hsplit : ops = before ++ rest) :
      used (s.trace before) < UInt64.size := by
    rw [hsplit] at hroom
    exact Nat.lt_of_le_of_lt (used_trace_append s before rest) hroom
  refine ⟨?_, fun before seq next rest hsplit => ?_, fun before between rest seq hsplit hissued hstale => ?_,
    fun before rest _ => state_after s before⟩
  · refine (numbers_rise (s := s) ?_).1
    rw [show s.issued.toNat = 0 from rfl, Nat.zero_add]
    exact hroom
  · rw [install_fst]
    exact isCurrent_iff_latest (hroomAt hsplit) (hgiven before seq next rest hsplit)
  · exact isCurrent_append_eq_false (hroomAt hsplit) hissued hstale

/-- A state that a dance may lead to. -/
def spaced : SessionState := { SessionState.new ⟨1⟩ with localHolonSpace := some (.staged ⟨⟨1⟩, .numbered 1⟩) }

/-- The first dance is cancelled and its answer comes late; the answer to the second is taken over. -/
def overtaken : List Operation :=
  [.begin, .nextSeq, .cancelInFlight, .install 1 (.new ⟨7⟩), .finish, .begin, .nextSeq, .install 3 spaced, .finish]

/-- The second dance has the third number, as the cancellation has used up the one between. -/
theorem stale_numbers_stay_stale_when_overtaken :
    let s := start (.new ⟨1⟩) ⟨"local"⟩ 8
    numbers (s.trace overtaken) = [1, 3] ∧ (numbers (s.trace overtaken)).Pairwise (· < ·) ∧
      (s.after (overtaken.take 3)).isCurrent 1 = false ∧ (s.after overtaken).isCurrent 1 = false ∧
      ((s.after (overtaken.take 7)).install 3 spaced).1 = true ∧ (s.after overtaken).state = spaced := by
  intro s
  have hgiven : ∀ before seq next rest, overtaken = before ++ .install seq next :: rest →
      seq ∈ numbers (s.trace before) := by
    intro before seq next rest hsplit
    have hbefore : before = overtaken.take before.length := by rw [hsplit, List.take_left]
    have hat : overtaken[before.length]? = some (.install seq next) := by rw [hsplit]; simp
    rw [hbefore]
    match before.length, hat with
    | 3, hat | 7, hat => cases hat; decide
    | 0, hat | 1, hat | 2, hat | 4, hat | 5, hat | 6, hat | 8, hat => cases hat
    | n + 9, hat => cases hat
  obtain ⟨hrises, hinstalls, hstays, hstate⟩ :=
    stale_numbers_stay_stale (.new ⟨1⟩) ⟨"local"⟩ 8 overtaken (by decide) hgiven
  have hlatest : Latest (s.trace (overtaken.take 7)) 3 := ⟨s.trace (overtaken.take 6), .nextSeq, [], rfl, nofun⟩
  have hstale : (s.after (overtaken.take 3)).isCurrent 1 = false := rfl
  exact ⟨rfl, hrises, hstale, hstays (overtaken.take 3) (overtaken.drop 3) [] 1 rfl (by decide) hstale,
    (hinstalls (overtaken.take 7) 3 _ (overtaken.drop 8) rfl).2 hlatest, hstate overtaken [] rfl⟩

end Session

end Holarchy
