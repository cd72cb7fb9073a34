import Mathlib

/-!
# Ledgers of requests and decisions

A ledger lists, oldest entry first, which subject was put to a decision under
which key and what was decided.  A key is requested before it is decided and
is requested once, so the subject of a key never changes, while its verdict is
the latest one.
-/

namespace RootSeeker

/-- `σ` is what a key stands for, `ν` what can be decided about it. -/
inductive LedgerEntry (κ σ ν : Type*) where
  | request (key : κ) (subject : σ)
  | decision (key : κ) (verdict : ν)

abbrev Ledger (κ σ ν : Type*) := List (LedgerEntry κ σ ν)

variable {κ σ ν : Type*} [DecidableEq κ]

namespace LedgerEntry

def subjectOf (key : κ) : LedgerEntry κ σ ν → Option σ
  | request other subject => if other = key then some subject else none
  | decision _ _ => none

def verdictOn (key : κ) : LedgerEntry κ σ ν → Option ν
  | request _ _ => none
  | decision other verdict => if other = key then some verdict else none

end LedgerEntry

namespace Ledger

def subject? (ledger : Ledger κ σ ν) (key : κ) : Option σ :=
  ledger.findSome? (LedgerEntry.subjectOf key)

/-- The latest decision on the key. -/
def verdict? (ledger : Ledger κ σ ν) (key : κ) : Option ν :=
  ledger.reverse.findSome? (LedgerEntry.verdictOn key)

/-- The ledgers that a decision process can write. -/
inductive Sound : Ledger κ σ ν → Prop where
  | empty : Sound []
  | request {ledger : Ledger κ σ ν} (key : κ) (subject : σ)
      (hsound : Sound ledger) (hnew : ledger.subject? key = none) :
      Sound (ledger ++ [.request key subject])
  | decision {ledger : Ledger κ σ ν} (key : κ) (verdict : ν)
      (hsound : Sound ledger) (hknown : ledger.subject? key ≠ none) :
      Sound (ledger ++ [.decision key verdict])

@[simp]
theorem subject?_append_request (ledger : Ledger κ σ ν) (key other : κ) (subject : σ) :
    subject? (ledger ++ [.request other subject]) key =
      (ledger.subject? key).or (if other = key then some subject else none) := by
  rw [subject?, List.findSome?_append, List.findSome?_singleton]
  rfl

@[simp]
theorem subject?_append_decision (ledger : Ledger κ σ ν) (key other : κ) (verdict : ν) :
    subject? (ledger ++ [.decision other verdict]) key = ledger.subject? key := by
  rw [subject?, List.findSome?_append]
  exact Option.or_none

@[simp]
theorem verdict?_append_request (ledger : Ledger κ σ ν) (key other : κ) (subject : σ) :
    verdict? (ledger ++ [.request other subject]) key = ledger.verdict? key := by
  rw [verdict?, List.reverse_append]
  rfl

@[simp]
theorem verdict?_append_decision (ledger : Ledger κ σ ν) (key other : κ) (verdict : ν) :
    verdict? (ledger ++ [.decision other verdict]) key =
      if other = key then some verdict else ledger.verdict? key := by
  rw [verdict?, List.reverse_append, List.reverse_singleton, List.singleton_append,
    List.findSome?_cons]
  by_cases hkey : other = key
  · simp [LedgerEntry.verdictOn, hkey]
  · simp [LedgerEntry.verdictOn, hkey, verdict?]

/-- Nothing is decided before it is requested. -/
theorem Sound.verdict?_eq_none {ledger : Ledger κ σ ν} (hsound : Sound ledger) {key : κ}
    (hunknown : ledger.subject? key = none) : ledger.verdict? key = none := by
  induction hsound with
  | empty => rfl
  | request other subject _ _ ih =>
    rw [subject?_append_request, Option.or_eq_none_iff] at hunknown
    rw [verdict?_append_request]
    exact ih hunknown.1
  | decision other verdict _ hknown ih =>
    rw [subject?_append_decision] at hunknown
    have hne : other ≠ key := by
      intro hkey
      rw [hkey] at hknown
      exact hknown hunknown
    rw [verdict?_append_decision, if_neg hne]
    exact ih hunknown

end Ledger

end RootSeeker
