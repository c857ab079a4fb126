import Mathlib.Tactic.Common

/-!
# Answers behind a binary semaphore

A requester submits a numbered request, waits on a binary semaphore and then reads the
answer from shared variables. The one who answers writes the variables and gives the
semaphore. If the semaphore is clear at the submit and at most one request is in flight, what
the requester reads is the answer to its own request.
-/

namespace WirelessHub.Framework

/-- The request in flight and the semaphore. -/
structure Latch where
  inFlight : Option Nat
  done : Bool

/-- Where the requester is with its request. -/
inductive Wait
  | waiting (n : Nat)
  | taken (n : Nat)

namespace Latch

variable {l : Latch} {answer answer' : Nat → Prop} {n : Nat} {w : Wait}

/-- The semaphore stands for the requester's own request; `answer n` says that the shared
variables hold the answer to request `n`. -/
def Paired (l : Latch) (answer : Nat → Prop) : Wait → Prop
  | .waiting n => l.inFlight = some n ∧ l.done = false ∨ l.inFlight = none ∧ l.done = true ∧ answer n
  | .taken n => l.inFlight = none ∧ answer n

theorem paired_submit (n : Nat) : Paired ⟨some n, false⟩ answer (.waiting n) := .inl ⟨rfl, rfl⟩

theorem Paired.complete (h : l.Paired answer w) (hfly : l.inFlight = some n) (hanswer : answer' n) :
    Paired ⟨none, true⟩ answer' w := by
  cases w with
  | waiting m =>
    rcases h with ⟨hm, -⟩ | ⟨hnone, -⟩
    · obtain rfl : m = n := Option.some.inj (hm.symm.trans hfly)
      exact .inr ⟨rfl, rfl, hanswer⟩
    · rw [hnone] at hfly
      cases hfly
  | taken m =>
    rw [h.1] at hfly
    cases hfly

theorem Paired.take (h : l.Paired answer (.waiting n)) (hdone : l.done = true) :
    Paired ⟨l.inFlight, false⟩ answer (.taken n) := by
  rcases h with ⟨-, hclear⟩ | ⟨hnone, -, hanswer⟩
  · rw [hdone] at hclear
    cases hclear
  · exact ⟨hnone, hanswer⟩

theorem Paired.mono (h : l.Paired answer w) (himp : ∀ n, answer n → answer' n) : l.Paired answer' w := by
  cases w with
  | waiting n => exact h.imp_right fun ⟨hnone, hdone, hanswer⟩ => ⟨hnone, hdone, himp n hanswer⟩
  | taken n => exact ⟨h.1, himp n h.2⟩

end Latch
end WirelessHub.Framework
