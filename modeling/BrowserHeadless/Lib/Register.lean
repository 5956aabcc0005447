/-
  BrowserHeadless.Lib.Register

  Registers of an event loop: variables that each event overwrites or leaves
  alone.

  After a run a register holds what the last writing event wrote
  (`register_of_consume`).  When events are inserted into the sequence, the
  register is undisturbed exactly when the last writer is not an inserted event
  or writes what the register would hold anyway (`undisturbed_iff`).
-/

import BrowserHeadless.Lib.Fold
import Mathlib.Data.List.Induction

namespace BrowserHeadless
namespace Lib

variable {α β ε σ : Type}

/-- What the last writing event writes. -/
def lastWrite (write : α → Option β) (as : List α) : Option β := (as.filterMap write).getLast?

theorem lastWrite_concat (write : α → Option β) (as : List α) (a : α) :
    lastWrite write (as ++ [a]) = (write a).or (lastWrite write as) := by
  unfold lastWrite
  rw [List.filterMap_append]
  cases h : write a with
  | none => simp [h]
  | some v => simp [h]

/-- Where no event writes, there is no last write. -/
theorem lastWrite_of_silent {write : α → Option β} (h : ∀ a, write a = none) (as : List α) :
    lastWrite write as = none := by
  unfold lastWrite
  rw [List.filterMap_eq_nil_iff.mpr fun a _ => h a]
  rfl

/-- A last write depends only on the events that can write. -/
theorem lastWrite_filterMap (keep : α → Option β) {γ : Type} (write : β → Option γ)
    (as : List α) :
    lastWrite write (as.filterMap keep) = lastWrite (fun a => (keep a).bind write) as := by
  unfold lastWrite
  rw [List.filterMap_filterMap]

/-- Where every event writes, the last one decides. -/
theorem lastWrite_map (g : α → β) (as : List α) :
    lastWrite (fun a => some (g a)) as = as.getLast?.map g := by
  rw [lastWrite, ← List.getLast?_map]
  exact congrArg List.getLast? (congrFun List.filterMap_eq_map as)

/-- A last write is one of the writes. -/
theorem exists_of_lastWrite {write : α → Option β} {as : List α} {v : β}
    (h : lastWrite write as = some v) : ∃ a ∈ as, write a = some v :=
  List.mem_filterMap.mp (List.mem_of_getLast? h)

/-- The register rule for a fold: if every event overwrites the register or
    leaves it alone, it ends with the last write. -/
theorem register_of_foldl {τ : Type} {f : τ → α → τ} (reg : τ → Option β)
    (write : α → Option β) (hstep : ∀ t a, reg (f t a) = (write a).or (reg t))
    (t : τ) (as : List α) : reg (as.foldl f t) = (lastWrite write as).or (reg t) := by
  induction as using List.reverseRecOn with
  | nil => rfl
  | append_singleton as a ih =>
      rw [List.foldl_append, List.foldl_cons, List.foldl_nil, hstep, ih, lastWrite_concat,
        Option.or_assoc]

/-- The register rule for a loop. -/
theorem register_of_consume {step : σ → α → Except ε σ} (reg : σ → Option β)
    (write : α → Option β)
    (hstep : ∀ s a s', step s a = .ok s' → reg s' = (write a).or (reg s))
    {s t : σ} {as : List α} (h : consume step s as = .ok t) :
    reg t = (lastWrite write as).or (reg s) := by
  rw [consume_view reg (fun r a => (write a).or r) hstep h]
  exact register_of_foldl id write (fun _ _ => rfl) (reg s) as

/-! ## Comparing two runs -/

/-- Two runs have the same outputs exactly when they end in the same error or in
    none, and where they end in none the condition `U` for the outputs to be
    equal holds. -/
theorem map_eq_map_iff {ο : Type} {x y : Except ε σ} {out : σ → ο} {U : Prop}
    (hU : ∀ s t, x = .ok s → y = .ok t → (out s = out t ↔ U)) :
    x.map out = y.map out ↔
      x.map (fun _ => ()) = y.map (fun _ => ()) ∧ (y.map (fun _ => ()) = .ok () → U) := by
  cases x with
  | error e =>
      cases y with
      | error e' => simp [Except.map]
      | ok t => simp [Except.map]
  | ok s =>
      cases y with
      | error e' => simp [Except.map]
      | ok t => simpa [Except.map] using hU s t rfl rfl

/-! ## Inserted events -/

/-- A sequence into which events of a given kind have been inserted: the marked
    ones are the inserted ones. -/
structure Insertion (α : Type) (kind : α → Prop) where
  marked : List (Bool × α)
  kind_of_marked : ∀ m ∈ marked, m.1 = true → kind m.2

namespace Insertion

variable {kind : α → Prop} (I : Insertion α kind)

/-- The sequence before the insertion. -/
def original : List α := (I.marked.filter fun m => !m.1).map Prod.snd

/-- The sequence after the insertion. -/
def extended : List α := I.marked.map Prod.snd

/-- The last event of the extended sequence that writes: whether it is an
    inserted one, and what it writes. -/
def lastWriter (write : α → Option β) : Option (Bool × β) :=
  lastWrite (fun m => (write m.2).map fun v => (m.1, v)) I.marked

/-- A last writer that was inserted writes what the register with initial
    contents `r` holds without the insertion. -/
def Undisturbed (write : α → Option β) (r : Option β) : Prop :=
  ∀ v, I.lastWriter write = some (true, v) → (lastWrite write I.original).or r = some v

theorem lastWrite_extended (write : α → Option β) :
    lastWrite write I.extended = (I.lastWriter write).map Prod.snd := by
  unfold extended lastWriter
  induction I.marked using List.reverseRecOn with
  | nil => rfl
  | append_singleton ms m ih =>
      rw [List.map_append, List.map_singleton, lastWrite_concat, lastWrite_concat, ih]
      cases write m.2 <;> rfl

/-- Where the last writer is not an inserted event, it is the last writer of the
    original sequence. -/
theorem lastWrite_original {write : α → Option β}
    (h : ∀ v, I.lastWriter write ≠ some (true, v)) :
    lastWrite write I.original = (I.lastWriter write).map Prod.snd := by
  unfold original
  unfold lastWriter at h ⊢
  generalize I.marked = ms at h ⊢
  induction ms using List.reverseRecOn with
  | nil => rfl
  | append_singleton ms m ih =>
      obtain ⟨inserted, a⟩ := m
      simp only [lastWrite_concat] at h
      rw [lastWrite_concat, List.filter_append, List.map_append]
      cases inserted with
      | true =>
          -- an inserted event of the last position does not write
          cases hw : write a with
          | some v => exact absurd (by simp [hw]) (h v)
          | none =>
              simp only [hw, Option.map_none, Option.none_or] at h ⊢
              simpa using ih h
      -- an original event writes in both sequences
      | false =>
          rw [show (List.filter (fun m => !m.1) [(false, a)]).map Prod.snd = [a] from rfl,
            lastWrite_concat]
          cases hw : write a with
          | some v => rfl
          | none =>
              simp only [hw, Option.map_none, Option.none_or] at h ⊢
              exact ih h

/-- The exact condition under which an insertion leaves a register as it is. -/
theorem undisturbed_iff (write : α → Option β) (r : Option β) :
    (lastWrite write I.extended).or r = (lastWrite write I.original).or r ↔
      I.Undisturbed write r := by
  rw [lastWrite_extended]
  constructor
  · intro h v hv
    rw [hv] at h
    exact h.symm
  · intro h
    -- the last writer was inserted, or it is the original one
    by_cases hins : ∃ v, I.lastWriter write = some (true, v)
    · obtain ⟨v, hv⟩ := hins
      rw [h v hv, hv]
      rfl
    · rw [lastWrite_original I fun v hv => hins ⟨v, hv⟩]

end Insertion

end Lib
end BrowserHeadless
