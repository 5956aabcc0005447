/-
  BrowserHeadless.Jobs.Outcome

  What a poller sees of a job that has ended (src/jobs.rs, `run_job` and `get`).

  A record that is queued or running has no data and no error yet, so the completion
  leaves exactly the outcome in it.  Nothing writes to it afterwards: until it is
  gone every answer is the view of that outcome (`get_finished`).
-/

import BrowserHeadless.Jobs.View

namespace BrowserHeadless
namespace Jobs

variable {β : Type} {cfg : JobsConfig}

/-- The view of a job that ended with an outcome, but for its age. -/
def JobOutcome.view (id : String) : JobOutcome β → JobView β
  | .ok (.ok v) => ⟨id, .done, some 200, some v, none, 0⟩
  | .ok (.error e) => ⟨id, .error, some 500, none, some ("serialize: " ++ e), 0⟩
  | .err e => ⟨id, .error, some e.statusU16, none, some e.message, 0⟩

/-- A record without a result. -/
def JobRecord.Blank (rec : JobRecord β) : Prop := rec.data = none ∧ rec.error = none

/-- Queued and running records are blank in every state of every run. -/
structure Pending (s : State β) : Prop where
  tracked : Tracked s
  blank : ∀ p ∈ s.map, p.2.status.active = true → p.2.Blank

theorem Pending.init : Pending (State.init : State β) where
  tracked := .init
  blank := by
    intro p hp
    cases hp

theorem Pending.step {s s' : State β} {a : Action β} (hs : Pending s) (h : step cfg s a = some s') :
    Pending s' where
  tracked := hs.tracked.step h
  blank := by
    rintro ⟨id, rec'⟩ hrec hactive
    rcases step_records hs.tracked.keyed h hrec with ⟨rec, hold, hmove⟩ | ⟨-, now, rfl⟩
    · cases hmove with
      | same => exact hs.blank _ hold hactive
      -- the job was queued, and so was its record
      | run _ hi =>
          have hqueued : rec.status = .queued := hs.tracked.expects _ _ rec hi hold
          have hblank := hs.blank _ hold (by simp [hqueued, JobStatus.active])
          exact hblank
      | complete _ _ =>
          rw [JobRecord.complete_active] at hactive
          cases hactive
    · exact ⟨rfl, rfl⟩

/-- A job that has ended is not revived. -/
theorem step_live {s s' : State β} {a : Action β} (h : step cfg s a = some s') {id : String}
    (hid : id ∈ s.jobs.map (·.id)) (hs : Identified s) (hlive : s'.Live id) : s.Live id := by
  cases step_cases h with
  | @enter c call hc hpc =>
      rcases enter_cases cfg s c call with ⟨-, heq⟩ | ⟨-, heq⟩
      · rw [heq] at hlive
        exact hlive
      · rw [heq] at hlive
        obtain ⟨job, hmem, rfl, hpclive⟩ := hlive
        rcases List.mem_append.mp hmem with hold | hnew
        · exact ⟨job, hold, rfl, hpclive⟩
        -- the new job has a new id
        · rw [List.mem_singleton] at hnew
          rw [hnew] at hid
          exact absurd hid (hs.fresh hc hpc)
  | spawn hi | count hi | run hi | finish hi | captured hi => exact hlive.of_setPc hi fun _ => rfl
  | uncount hi => exact hlive.of_setPc hi fun h => by split at h <;> cases h
  | notify hi | panic hi _ => exact hlive.of_setPc hi fun h => by cases h
  | tick | submit _ | cancel _ _ | sweep | purge _ | rehash _ | drain | drainStep _ _
  | drainTimeout _ => exact hlive

/-- Job `id` has ended, and a record of it shows `outcome`. -/
structure Finished (id : String) (outcome : JobOutcome β) (s : State β) : Prop where
  tracked : Tracked s
  known : id ∈ s.jobs.map (·.id)
  ended : ¬ s.Live id
  shows : ∀ rec, (id, rec) ∈ s.map → (rec.view id 0).ageless = outcome.view id

theorem Finished.step {s s' : State β} {a : Action β} {id : String} {outcome : JobOutcome β}
    (hs : Finished id outcome s) (h : step cfg s a = some s') : Finished id outcome s' where
  tracked := hs.tracked.step h
  known := step_jobs_ids h hs.known
  ended := fun hlive => hs.ended (step_live h hs.known hs.tracked.keyed.ids hlive)
  shows := by
    intro rec' hrec'
    obtain ⟨rec, hrec, hmove⟩ := step_record hs.tracked.keyed h hs.known hrec'
    cases hmove with
    | same => exact hs.shows rec' hrec
    -- only a live job writes to its record
    | run _ hi => exact absurd ⟨_, List.mem_of_getElem? hi, rfl, rfl⟩ hs.ended
    | complete _ hi => exact absurd ⟨_, List.mem_of_getElem? hi, rfl, rfl⟩ hs.ended

end Jobs
end BrowserHeadless
