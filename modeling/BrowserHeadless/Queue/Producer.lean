/-
  BrowserHeadless.Queue.Producer

  The producer side of the job queue: `QueueClient::enqueue` (src/queue.rs),
  running next to the workers on the same Redis.

  `enqueue` writes the queued marker with `SET NX`, then adds the entry, and
  deletes the marker again when `XADD` came back with an error.  The marker
  lands before the entry is visible, and a call that deletes it never returns
  `Ok`; so no producer touches the key of an enqueued job a worker can see
  (`enqueue_keeps_result`).
-/

import BrowserHeadless.Error
import BrowserHeadless.Queue.Steps

namespace BrowserHeadless
namespace Queue

variable {β : Type}

/-- The `queued` marker of a job. -/
def queuedMarker (id : String) : StoredJobResult β := ⟨id, some "queued", none, none, none⟩

/-- Where one `enqueue` stands. -/
inductive CallPc where
  /-- In `self.conn()`. -/
  | connecting
  /-- `SET NX EX` of the queued marker is next. -/
  | marking
  /-- `XADD` is next. -/
  | adding
  /-- `XADD` was executed; its reply is on the way. -/
  | awaitingReply
  /-- `XADD` came back with this error; `DEL` of the marker is next. -/
  | cleanup (error : String)
  /-- Returned `Ok(id)`. -/
  | returned
  | failed (error : CaptureError)
  /-- The future was dropped. -/
  | cancelled
deriving DecidableEq, Repr

/-- One call of `enqueue`, with the id it minted and the payload text. -/
structure Call where
  id : String
  payload : String
  pc : CallPc
  /-- The entry its `XADD` added. -/
  entry : Option Nat
deriving DecidableEq, Repr

/-- The answer to a Redis command: the reply, the error text if it is one, and
    how many old entries an `XADD` with `MAXLEN` trims. -/
structure Answer where
  reply : Reply
  error : String := ""
  trimmed : Nat := 0

/-- The worker fleet, and the calls of the producers. -/
structure World (β : Type) where
  fleet : State β
  calls : List Call

/-- What can happen next. -/
inductive WorldAction (β : Type) where
  /-- Anything on the worker side, and other producers' `XADD`s. -/
  | fleet (a : Action β)
  /-- A new call of `enqueue`. -/
  | enqueue (id payload : String)
  /-- The next step of call `c`. -/
  | call (c : Nat) (answer : Answer)
  /-- The future of call `c` is dropped at its await. -/
  | cancel (c : Nat)

namespace World

def init : World β := ⟨State.init, []⟩

/-- Replace call `c`. -/
def setCall (w : World β) (c : Nat) (call : Call) : World β :=
  { w with calls := w.calls.set c call }

/-- Run a Redis command. -/
def command (w : World β) (reply : Reply) (f : Redis β → Redis β) : World β :=
  { w with fleet := w.fleet.command reply f }

end World

/-- `SET key v NX`. -/
def Redis.setNx (r : Redis β) (key : String) (v : StoredJobResult β) : Redis β :=
  if (r.keys key).isSome then r else r.set key v

/-- The trimming of an `XADD MAXLEN ~ n`: the oldest entries leave the stream. -/
def Redis.trim (r : Redis β) (n : Nat) : Redis β :=
  r.modifyEntries (List.range n) fun x => { x with inStream := false }

variable (cfg : WorkerConfig β) (maxlen : Nat)

/-- A call that returned an error. -/
def Call.fail (call : Call) (kind : CaptureErrorKind) (message : String) : Call :=
  { call with pc := .failed ⟨kind, message⟩ }

/-- `enqueue`, from one command to the next. -/
def enqueueStep (w : World β) (c : Nat) (call : Call) (answer : Answer) :
    CallPc → Option (World β)
  | .connecting =>
      if answer.reply = .ok then some (w.setCall c { call with pc := .marking })
      else some (w.setCall c
        (call.fail .serviceUnavailable ("redis connect failed: " ++ answer.error)))
  | .marking =>
      let key := cfg.resultKey call.id
      let w' := w.command answer.reply fun r => r.setNx key (queuedMarker call.id)
      if answer.reply = .ok then
        -- `SET NX` answered nil: the key was taken
        if (w.fleet.redis.keys key).isSome then
          some (w'.setCall c (call.fail .internal
            ("job id collision on `" ++ call.id ++ "`; not overwriting")))
        else some (w'.setCall c { call with pc := .adding })
      else some (w'.setCall c
        (call.fail .serviceUnavailable ("redis marker write failed: " ++ answer.error)))
  | .adding =>
      -- the entry is visible from here on, whatever the reply will be
      if answer.reply.effect then
        let w' := w.command .ok fun r =>
          (if 0 < maxlen then r.trim answer.trimmed else r).xadd (some call.payload)
        some (w'.setCall c
          { call with pc := .awaitingReply, entry := some w.fleet.redis.log.length })
      else some (w.setCall c { call with pc := .cleanup answer.error })
  | .awaitingReply =>
      if answer.reply = .ok then some (w.setCall c { call with pc := .returned })
      else some (w.setCall c { call with pc := .cleanup answer.error })
  | .cleanup error =>
      let w' := w.command answer.reply fun r => r.del (cfg.resultKey call.id)
      some (w'.setCall c (call.fail .serviceUnavailable ("redis enqueue failed: " ++ error)))
  | .returned | .failed _ | .cancelled => none

/-- A call that has not come to its end. -/
def CallPc.active : CallPc → Bool
  | returned | failed _ | cancelled => false
  | _ => true

/-- The guarded step function of producers and workers.  `Uuid::new_v4` never
    mints an id twice. -/
def worldStep (w : World β) : WorldAction β → Option (World β)
  | .fleet a => (step cfg w.fleet a).map fun s => { w with fleet := s }
  | .enqueue id payload =>
      if w.calls.all fun call => call.id ≠ id then
        some { w with calls := w.calls ++ [⟨id, payload, .connecting, none⟩] }
      else none
  | .call c answer => w.calls[c]?.bind fun call => enqueueStep cfg maxlen w c call answer call.pc
  | .cancel c =>
      w.calls[c]?.bind fun call =>
        if call.pc.active then some (w.setCall c { call with pc := .cancelled }) else none

/-- Producers and workers as a transition system. -/
def world : Lib.System (World β) (WorldAction β) := ⟨World.init, worldStep cfg maxlen⟩

/-- A step of a producer. -/
def WorldAction.isProducer : WorldAction β → Bool
  | fleet _ => false
  | _ => true

variable {cfg} {maxlen}

/-! ## What a producer step does -/

/-- A call that can no longer return `Ok`. -/
def CallPc.hopeless : CallPc → Bool
  | cleanup _ | failed _ | cancelled => true
  | _ => false

/-- A call past its `XADD`. -/
def CallPc.pastAdd : CallPc → Bool
  | connecting | marking | adding => false
  | _ => true

/-- The pcs at which `enqueue` writes to the result key. -/
def CallPc.touchesKey : CallPc → Bool
  | marking | cleanup _ => true
  | _ => false

/-- Past its `XADD` a call touches its key only to delete the marker. -/
theorem CallPc.hopeless_of_touchesKey {pc : CallPc} (hpast : pc.pastAdd = true)
    (htouch : pc.touchesKey = true) : pc.hopeless = true := by
  cases pc with
  | cleanup e => rfl
  | connecting | marking | adding => cases hpast
  | awaitingReply | returned | failed | cancelled => cases htouch

/-- How one step changes a call. -/
structure CallMove (call call' : Call) : Prop where
  id_eq : call'.id = call.id
  entry : call'.entry = call.entry ∨ call'.pc.pastAdd = true
  pastAdd : call.pc.pastAdd = true → call'.pc.pastAdd = true
  hopeless : call.pc.hopeless = true → call'.pc.hopeless = true

theorem World.command_keys (w : World β) (reply : Reply) (f : Redis β → Redis β) {k : String}
    (hf : (f w.fleet.redis).keys k = w.fleet.redis.keys k) :
    (w.command reply f).fleet.redis.keys k = w.fleet.redis.keys k := by
  rcases w.fleet.command_redis reply f with ⟨-, h⟩ | h
  · rw [World.command, h, hf]
  · rw [World.command, h]

theorem Redis.setNx_keys_ne (r : Redis β) {key k : String} (v : StoredJobResult β) (h : k ≠ key) :
    (r.setNx key v).keys k = r.keys k := by
  unfold Redis.setNx
  split
  · rfl
  · exact r.set_keys_ne v h

/-- A command that writes to one key. -/
theorem World.command_key (w : World β) (reply : Reply) (f : Redis β → Redis β) {key : String}
    (hf : ∀ k, k ≠ key → (f w.fleet.redis).keys k = w.fleet.redis.keys k) (k : String) :
    (w.command reply f).fleet.redis.keys k = w.fleet.redis.keys k ∨ k = key := by
  by_cases hk : k = key
  · exact Or.inr hk
  · exact Or.inl (w.command_keys reply f (hf k hk))

/-- A call that goes on to its next command. -/
theorem CallMove.goto {call : Call} {pc pc' : CallPc} (hpc : call.pc = pc)
    (hpast : pc.pastAdd = true → pc'.pastAdd = true)
    (hhopeless : pc.hopeless = true → pc'.hopeless = true) :
    CallMove call { call with pc := pc' } where
  id_eq := rfl
  entry := Or.inl rfl
  pastAdd h := hpast (hpc ▸ h)
  hopeless h := hhopeless (hpc ▸ h)

/-- A call that fails. -/
theorem CallMove.fail (call : Call) (kind : CaptureErrorKind) (message : String) :
    CallMove call (call.fail kind message) :=
  .goto rfl (fun _ => rfl) (fun _ => rfl)

/-- A step of `enqueue` replaces its call, and touches the key of its own id
    only. -/
theorem enqueueStep_spec {w w' : World β} {c : Nat} {call : Call} {answer : Answer}
    (h : enqueueStep cfg maxlen w c call answer call.pc = some w') :
    (∃ call', w'.calls = w.calls.set c call' ∧ CallMove call call') ∧
    ∀ k, w'.fleet.redis.keys k = w.fleet.redis.keys k ∨
      k = cfg.resultKey call.id ∧ call.pc.touchesKey = true := by
  cases hpc : call.pc with
  | connecting =>
      rw [hpc] at h
      simp only [enqueueStep] at h
      split at h
      next =>
        cases h
        exact ⟨⟨_, rfl, .goto hpc nofun nofun⟩, fun _ => Or.inl rfl⟩
      next =>
        cases h
        exact ⟨⟨_, rfl, .fail call _ _⟩, fun _ => Or.inl rfl⟩
  | marking =>
      rw [hpc] at h
      have hkeys (k : String) := (w.command_key answer.reply
        (fun r => r.setNx (cfg.resultKey call.id) (queuedMarker call.id))
        (fun _ => Redis.setNx_keys_ne _ _) k).imp_right
          fun hk => And.intro hk (rfl : CallPc.marking.touchesKey = true)
      simp only [enqueueStep] at h
      split at h
      next =>
        split at h
        next =>
          cases h
          exact ⟨⟨_, rfl, .fail call _ _⟩, hkeys⟩
        next =>
          cases h
          exact ⟨⟨_, rfl, .goto hpc nofun nofun⟩, hkeys⟩
      next =>
        cases h
        exact ⟨⟨_, rfl, .fail call _ _⟩, hkeys⟩
  | adding =>
      rw [hpc] at h
      simp only [enqueueStep] at h
      split at h
      next =>
        cases h
        refine ⟨⟨_, rfl, rfl, Or.inr rfl, fun _ => rfl, fun hhopeless => ?_⟩,
          fun k => Or.inl (w.command_keys _ _ ?_)⟩
        · rw [hpc] at hhopeless
          cases hhopeless
        · split <;> rfl
      next =>
        cases h
        exact ⟨⟨_, rfl, .goto hpc nofun nofun⟩, fun _ => Or.inl rfl⟩
  | awaitingReply =>
      rw [hpc] at h
      simp only [enqueueStep] at h
      split at h
      next =>
        cases h
        exact ⟨⟨_, rfl, .goto hpc (fun _ => rfl) nofun⟩, fun _ => Or.inl rfl⟩
      next =>
        cases h
        exact ⟨⟨_, rfl, .goto hpc (fun _ => rfl) nofun⟩, fun _ => Or.inl rfl⟩
  | cleanup error =>
      rw [hpc] at h
      cases h
      refine ⟨⟨_, rfl, .fail call _ _⟩, fun k => ?_⟩
      exact (w.command_key _ _ (fun _ hk => if_neg hk) k).imp_right fun hk => ⟨hk, rfl⟩
  | returned | failed _ | cancelled =>
      rw [hpc] at h
      cases h

/-- The calls and the ids of a world: ids are distinct, and a call that added
    its entry is past its `XADD`. -/
structure WorldOk (w : World β) : Prop where
  distinct : ∀ (c d : Nat) (call other : Call), w.calls[c]? = some call →
    w.calls[d]? = some other → call.id = other.id → c = d
  added : ∀ (c : Nat) (call : Call), w.calls[c]? = some call → call.entry.isSome = true →
    call.pc.pastAdd = true

theorem WorldOk.init : WorldOk (World.init : World β) where
  distinct := by
    intro c d call other hc
    cases hc
  added := by
    intro c call hc
    cases hc

/-- What one step does to the calls. -/
inductive CallsStep (w : World β) : List Call → Prop where
  | same : CallsStep w w.calls
  | enqueue (id payload : String) (hnew : ∀ call ∈ w.calls, call.id ≠ id) :
      CallsStep w (w.calls ++ [⟨id, payload, .connecting, none⟩])
  | move (c : Nat) (call call' : Call) (hc : w.calls[c]? = some call)
      (hmove : CallMove call call') : CallsStep w (w.calls.set c call')

theorem worldStep_calls {w w' : World β} {a : WorldAction β}
    (h : worldStep cfg maxlen w a = some w') : CallsStep w w'.calls := by
  cases a <;> simp only [worldStep] at h
  case fleet a =>
    obtain ⟨s, -, rfl⟩ := Option.map_eq_some_iff.mp h
    exact .same
  case enqueue id payload =>
    split at h
    next hall =>
      cases h
      refine .enqueue id payload fun call hcall => ?_
      simpa using List.all_eq_true.mp hall call hcall
    next => cases h
  case call c answer =>
    obtain ⟨call, hc, h⟩ := Option.bind_eq_some_iff.mp h
    obtain ⟨⟨call', hcalls, hmove⟩, -⟩ := enqueueStep_spec h
    rw [hcalls]
    exact .move c call call' hc hmove
  case cancel c =>
    obtain ⟨call, hc, h⟩ := Option.bind_eq_some_iff.mp h
    split at h <;> cases h
    refine .move c call _ hc ?_
    constructor <;> simp [CallPc.pastAdd, CallPc.hopeless]

/-- A call of the new world is new or comes from an old one. -/
theorem CallsStep.origin {w : World β} {calls : List Call} (h : CallsStep w calls) {c : Nat}
    {call' : Call} (hc : calls[c]? = some call') :
    (∃ call, w.calls[c]? = some call ∧ (call' = call ∨ CallMove call call')) ∨
    (c = w.calls.length ∧ call'.entry = none ∧ ∀ call ∈ w.calls, call.id ≠ call'.id) := by
  cases h with
  | same => exact Or.inl ⟨call', hc, Or.inl rfl⟩
  | enqueue id payload hnew =>
      rw [List.getElem?_append] at hc
      split at hc
      next => exact Or.inl ⟨call', hc, Or.inl rfl⟩
      next hlt =>
        -- the new call is the only one past the old length
        have hzero : c - w.calls.length = 0 := by
          by_contra hne
          rw [List.getElem?_eq_none (by simp; omega)] at hc
          cases hc
        rw [hzero] at hc
        cases hc
        exact Or.inr ⟨by omega, rfl, hnew⟩
  | move d call call1 hd hmove =>
      rw [List.getElem?_set] at hc
      split at hc
      next hdc =>
        subst hdc
        split at hc
        next =>
          cases hc
          exact Or.inl ⟨call, hd, Or.inr hmove⟩
        next => cases hc
      next => exact Or.inl ⟨call', hc, Or.inl rfl⟩

theorem WorldOk.step {w w' : World β} {a : WorldAction β} (hw : WorldOk w)
    (h : worldStep cfg maxlen w a = some w') : WorldOk w' where
  distinct := by
    intro c d x y hx hy hid
    have hold : ∀ {z z' : Call}, z' = z ∨ CallMove z z' → z'.id = z.id := by
      rintro z z' (rfl | hm)
      · rfl
      · exact hm.id_eq
    rcases (worldStep_calls h).origin hx with ⟨x0, hx0, hxm⟩ | ⟨hcx, -, hnx⟩
    · rcases (worldStep_calls h).origin hy with ⟨y0, hy0, hym⟩ | ⟨hcy, -, hny⟩
      · rw [hold hxm, hold hym] at hid
        exact hw.distinct c d x0 y0 hx0 hy0 hid
      · rw [hold hxm] at hid
        exact absurd hid (hny x0 (List.mem_of_getElem? hx0))
    · rcases (worldStep_calls h).origin hy with ⟨y0, hy0, hym⟩ | ⟨hcy, -, hny⟩
      · rw [hold hym] at hid
        exact absurd hid.symm (hnx y0 (List.mem_of_getElem? hy0))
      · rw [hcx, hcy]
  added := by
    intro c x hx hentry
    rcases (worldStep_calls h).origin hx with ⟨x0, hx0, rfl | hm⟩ | ⟨-, hnone, -⟩
    · exact hw.added c x hx0 hentry
    · rcases hm.entry with heq | hpast
      · rw [heq] at hentry
        exact hm.pastAdd (hw.added c x0 hx0 hentry)
      · exact hpast
    · rw [hnone] at hentry
      cases hentry

/-- A hopeless call stays hopeless. -/
theorem hopeless_step {w w' : World β} {a : WorldAction β} {c : Nat}
    (h : worldStep cfg maxlen w a = some w')
    (hc : ∃ call, w.calls[c]? = some call ∧ call.pc.hopeless = true) :
    ∃ call, w'.calls[c]? = some call ∧ call.pc.hopeless = true := by
  obtain ⟨call, hc, hhope⟩ := hc
  have hlt : c < w.calls.length := (List.getElem?_eq_some_iff.mp hc).1
  have hstep := worldStep_calls h
  generalize w'.calls = calls at hstep ⊢
  cases hstep with
  | same => exact ⟨call, hc, hhope⟩
  | enqueue id payload _ =>
      exact ⟨call, by rw [List.getElem?_append_left hlt, hc], hhope⟩
  | move d old call' hd hmove =>
      -- the call that moves is the hopeless one, or another
      by_cases hdc : d = c
      · subst hdc
        obtain rfl : call = old := Option.some.inj (hc.symm.trans hd)
        exact ⟨call', List.getElem?_set_self hlt, hmove.hopeless hhope⟩
      · exact ⟨call, by rw [List.getElem?_set_ne hdc, hc], hhope⟩

/-- A producer step touches the key of one call only, which is about to mark
    or to clean up. -/
theorem producer_keys {w w' : World β} {a : WorldAction β}
    (h : worldStep cfg maxlen w a = some w') (hprod : a.isProducer = true) (k : String) :
    w'.fleet.redis.keys k = w.fleet.redis.keys k ∨
    ∃ (d : Nat) (other : Call), w.calls[d]? = some other ∧ k = cfg.resultKey other.id ∧
      other.pc.touchesKey = true := by
  cases a <;> simp only [worldStep] at h
  case fleet => cases hprod
  case enqueue id payload =>
    split at h <;> cases h
    exact Or.inl rfl
  case call d answer =>
    obtain ⟨other, hd, h⟩ := Option.bind_eq_some_iff.mp h
    rcases (enqueueStep_spec h).2 k with heq | ⟨hk, htouch⟩
    · exact Or.inl heq
    · exact Or.inr ⟨d, other, hd, hk, htouch⟩
  case cancel d =>
    obtain ⟨other, hd, h⟩ := Option.bind_eq_some_iff.mp h
    split at h <;> cases h
    exact Or.inl rfl

/-- Once the entry of a call that returns `Ok` is in the stream, no producer
    step changes the result key of its id. -/
theorem enqueue_keeps_result (cfg : WorkerConfig β) (maxlen : Nat)
    (as bs : List (WorldAction β)) (a : WorldAction β) (w w' t : World β)
    (hrun : (world cfg maxlen).exec World.init as = some w)
    (hprod : a.isProducer = true) (hstep : (world cfg maxlen).step w a = some w')
    (hrest : (world cfg maxlen).exec w' bs = some t)
    (c : Nat) (call callEnd : Call) (hcall : w.calls[c]? = some call)
    (hvisible : call.entry.isSome = true) (hend : t.calls[c]? = some callEnd)
    (hreturned : callEnd.pc = .returned) :
    w'.fleet.redis.keys (cfg.resultKey call.id) = w.fleet.redis.keys (cfg.resultKey call.id) := by
  have hok : WorldOk w :=
    Lib.System.exec_invariant WorldOk (fun w a w' hw h => hw.step h) .init hrun
  rcases producer_keys hstep hprod (cfg.resultKey call.id) with heq | ⟨d, other, hd, hkey, htouch⟩
  · exact heq
  · exfalso
    -- the key belongs to this very call, which would have to be hopeless
    have hid := cfg.resultKey_injective hkey
    obtain rfl : c = d := hok.distinct c d call other hcall hd hid
    obtain rfl : call = other := Option.some.inj (hcall.symm.trans hd)
    have hpast := hok.added c call hcall hvisible
    have hhope := CallPc.hopeless_of_touchesKey hpast htouch
    have hfinal := Lib.System.exec_invariant (M := world cfg maxlen)
      (fun w : World β => ∃ call, w.calls[c]? = some call ∧ call.pc.hopeless = true)
      (fun w a w' hw h => hopeless_step h hw) (hopeless_step hstep ⟨call, hcall, hhope⟩) hrest
    obtain ⟨last, hlast, hhope'⟩ := hfinal
    obtain rfl : callEnd = last := Option.some.inj (hend.symm.trans hlast)
    rw [hreturned] at hhope'
    cases hhope'

/-- A worker has finished the job before the reply to its `XADD` arrives. -/
def finishedEarly : List (WorldAction Unit) :=
  [.enqueue "job-1" samplePayload, .call 0 ⟨.ok, "", 0⟩, .call 0 ⟨.ok, "", 0⟩,
    .call 0 ⟨.ok, "", 0⟩, .fleet (.read 0 1 .ok), .fleet (.task 0 .ok), .fleet (.task 0 .ok),
    .fleet (.captured 0 (.ok (.ok ()))), .fleet (.task 0 .ok)]

/-- The reply to the `XADD` of `finishedEarly` leaves the result in place. -/
theorem enqueue_keeps_result_finishedEarly :
    ∃ w w' : World Unit,
      (world sampleConfig 100000).exec World.init finishedEarly = some w ∧
      (world sampleConfig 100000).step w (.call 0 ⟨.ok, "", 0⟩) = some w' ∧
      w'.fleet.redis.keys (sampleConfig.resultKey "job-1")
        = w.fleet.redis.keys (sampleConfig.resultKey "job-1") :=
  ⟨_, _, rfl, rfl, enqueue_keeps_result sampleConfig 100000 finishedEarly [] (.call 0 ⟨.ok, "", 0⟩)
    _ _ _ rfl rfl rfl rfl 0 _ _ rfl rfl rfl rfl⟩

end Queue
end BrowserHeadless
