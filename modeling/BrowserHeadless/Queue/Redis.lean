/-
  BrowserHeadless.Queue.Redis

  The part of Redis the job queue uses: one stream with one consumer group, and
  the string keys that hold job results.

  An entry is named by its position in the log of all `XADD`s.  The group reads
  in log order, so the entries before its cursor are the delivered ones; the
  pending list and the stream are flags of the entry.  Which consumer owns a
  pending entry and how long it has been idle are not kept: `XAUTOCLAIM` may
  claim any pending entry.
-/

import Mathlib.Data.List.Basic

namespace BrowserHeadless
namespace Queue

/-- A JSON document stored under a result key: a marker (`phase`) or a result
    (`status`, then `data` or `error`). -/
structure StoredJobResult (β : Type) where
  id : String
  phase : Option String
  status : Option Nat
  data : Option β
  error : Option String
deriving DecidableEq

/-- A terminal result is one with a status. -/
def StoredJobResult.terminal {β : Type} (r : StoredJobResult β) : Bool := r.status.isSome

/-- A stream entry; `payload` is its field of that name. -/
structure Entry where
  payload : Option String
  /-- Not yet deleted by `XDEL`. -/
  inStream : Bool
  /-- In the pending list of the group. -/
  pending : Bool
deriving DecidableEq, Repr

/-- The stream, the group and the result keys. -/
structure Redis (β : Type) where
  log : List Entry
  /-- The position after the last entry delivered to the group. -/
  cursor : Nat
  keys : String → Option (StoredJobResult β)

namespace Redis

variable {β : Type}

/-- An empty stream whose group was created at id `0`. -/
def empty : Redis β := ⟨[], 0, fun _ => none⟩

/-- `XADD` of an entry. -/
def xadd (r : Redis β) (payload : Option String) : Redis β :=
  { r with log := r.log ++ [⟨payload, true, false⟩] }

/-- The entries still in the stream that the group has not been given. -/
def undelivered (r : Redis β) : List Nat :=
  (List.range' r.cursor (r.log.length - r.cursor)).filter fun e =>
    r.log[e]?.any fun x => x.inStream

/-- Update the entries `ids`. -/
def modifyEntries (r : Redis β) (ids : List Nat) (f : Entry → Entry) : Redis β :=
  { r with log := r.log.mapIdx fun e x => if e ∈ ids then f x else x }

/-- `XREADGROUP … COUNT count … >`: the next undelivered entries become
    pending. -/
def xreadgroup (r : Redis β) (count : Nat) : Redis β × List Nat :=
  let ids := r.undelivered.take count
  let r' := r.modifyEntries ids fun x => { x with pending := true }
  -- the group's last-delivered id moves with the last entry of the reply
  ({ r' with cursor := (ids.getLast?.map (· + 1)).getD r.cursor }, ids)

/-- `XAUTOCLAIM` of the pending entries `ids`: the ones still in the stream are
    claimed, the deleted ones leave the pending list. -/
def xautoclaim (r : Redis β) (ids : List Nat) : Redis β × List Nat :=
  (r.modifyEntries ids fun x => { x with pending := x.inStream },
    ids.filter fun e => r.log[e]?.any fun x => x.inStream)

/-- `XACK` of an entry. -/
def xack (r : Redis β) (e : Nat) : Redis β :=
  r.modifyEntries [e] fun x => { x with pending := false }

/-- `XDEL` of an entry. -/
def xdel (r : Redis β) (e : Nat) : Redis β :=
  r.modifyEntries [e] fun x => { x with inStream := false }

/-- `SET key` (also `SETEX`; expiry is not modelled). -/
def set (r : Redis β) (key : String) (v : StoredJobResult β) : Redis β :=
  { r with keys := fun k => if k = key then some v else r.keys k }

/-- `DEL key`. -/
def del (r : Redis β) (key : String) : Redis β :=
  { r with keys := fun k => if k = key then none else r.keys k }

/-- The payload field of entry `e`. -/
def payload (r : Redis β) (e : Nat) : Option String := r.log[e]?.bind (·.payload)

/-- Entry `e` is in the pending list. -/
def Pending (r : Redis β) (e : Nat) : Prop := ∃ x, r.log[e]? = some x ∧ x.pending = true

/-- Entry `e` is in the stream. -/
def InStream (r : Redis β) (e : Nat) : Prop := ∃ x, r.log[e]? = some x ∧ x.inStream = true

/-! ## What the commands leave alone -/

theorem getElem?_modifyEntries (r : Redis β) (ids : List Nat) (f : Entry → Entry) (e : Nat) :
    (r.modifyEntries ids f).log[e]? = r.log[e]?.map fun x => if e ∈ ids then f x else x := by
  rw [modifyEntries, List.getElem?_mapIdx]

@[simp] theorem modifyEntries_length (r : Redis β) (ids : List Nat) (f : Entry → Entry) :
    (r.modifyEntries ids f).log.length = r.log.length := by
  simp [modifyEntries]

/-- An update of flags keeps the payload. -/
theorem payload_of_map {r r' : Redis β} {g : Entry → Entry} {e : Nat}
    (hlog : r'.log[e]? = r.log[e]?.map g) (hg : ∀ x, (g x).payload = x.payload) :
    r'.payload e = r.payload e := by
  rw [payload, payload, hlog]
  cases r.log[e]? with
  | none => rfl
  | some x => exact hg x

theorem payload_xadd_of_lt (r : Redis β) (p : Option String) {e : Nat} (he : e < r.log.length) :
    (r.xadd p).payload e = r.payload e := by
  rw [payload, payload, xadd, List.getElem?_append_left he]

theorem set_keys_self (r : Redis β) (key : String) (v : StoredJobResult β) :
    (r.set key v).keys key = some v := if_pos rfl

theorem set_keys_ne (r : Redis β) {key k : String} (v : StoredJobResult β) (h : k ≠ key) :
    (r.set key v).keys k = r.keys k := if_neg h

/-! ## Entries the group has done with -/

/-- Entry `e` was delivered and has left the pending list or the stream. -/
def Settled (r : Redis β) (e : Nat) : Prop :=
  ∃ x, r.log[e]? = some x ∧ e < r.cursor ∧ (x.pending = false ∨ x.inStream = false)

/-- The group has read a prefix of the log, and what it has not read is in the
    stream and not pending. -/
structure GroupOk (r : Redis β) : Prop where
  cursor_le : r.cursor ≤ r.log.length
  unread : ∀ (e : Nat) (x : Entry), r.log[e]? = some x → r.cursor ≤ e →
    x.inStream = true ∧ x.pending = false

theorem GroupOk.empty : GroupOk (empty : Redis β) where
  cursor_le := Nat.le_refl _
  unread := by
    intro e x hx
    simp [Redis.empty] at hx

theorem GroupOk.xadd {r : Redis β} (h : GroupOk r) (p : Option String) : GroupOk (r.xadd p) where
  cursor_le := by
    have := h.cursor_le
    simp only [Redis.xadd, List.length_append, List.length_singleton]
    omega
  unread := by
    intro e x hx hcur
    rw [Redis.xadd, List.getElem?_append] at hx
    split at hx
    -- an old entry, or the one just added
    next => exact h.unread e x hx hcur
    next => grind

theorem Settled.of_xadd {r : Redis β} (h : GroupOk r) {p : Option String} {e : Nat}
    (hs : Settled (r.xadd p) e) : Settled r e := by
  obtain ⟨x, hx, hcur, hflag⟩ := hs
  have hlt : e < r.log.length := Nat.lt_of_lt_of_le hcur h.cursor_le
  rw [xadd, List.getElem?_append_left hlt] at hx
  exact ⟨x, hx, hcur, hflag⟩

/-- All entries after the cursor are still to be delivered. -/
theorem GroupOk.undelivered_eq {r : Redis β} (h : GroupOk r) :
    r.undelivered = List.range' r.cursor (r.log.length - r.cursor) := by
  rw [undelivered, List.filter_eq_self]
  intro e he
  rw [List.mem_range'_1] at he
  have hlt : e < r.log.length := by omega
  have hin := (h.unread e r.log[e] (List.getElem?_eq_getElem hlt) he.1).1
  simp [List.getElem?_eq_getElem hlt, hin]

/-- `XREADGROUP` delivers the entries right after the cursor. -/
theorem GroupOk.xreadgroup_eq {r : Redis β} (h : GroupOk r) (count : Nat) :
    ∃ n, r.cursor + n ≤ r.log.length ∧ (r.xreadgroup count).2 = List.range' r.cursor n ∧
      (r.xreadgroup count).1.cursor = r.cursor + n := by
  have hcur := h.cursor_le
  have htake : r.undelivered.take count
      = List.range' r.cursor (min count (r.log.length - r.cursor)) := by
    rw [h.undelivered_eq]
    rcases Nat.le_total count (r.log.length - r.cursor) with hle | hle
    · rw [List.take_range'_of_length_ge hle, Nat.min_eq_left hle]
    · rw [List.take_range'_of_length_le hle, Nat.min_eq_right hle]
  refine ⟨min count (r.log.length - r.cursor), by omega, htake, ?_⟩
  simp only [xreadgroup, htake, List.getLast?_range']
  split
  next hzero => simp [hzero]
  next hpos =>
    simp only [Option.map_some, Option.getD_some]
    omega

theorem xreadgroup_log (r : Redis β) (count e : Nat) :
    (r.xreadgroup count).1.log[e]? = r.log[e]?.map fun x =>
      if e ∈ (r.xreadgroup count).2 then { x with pending := true } else x :=
  getElem?_modifyEntries r _ _ e

theorem GroupOk.xreadgroup {r : Redis β} (h : GroupOk r) (count : Nat) :
    GroupOk (r.xreadgroup count).1 := by
  obtain ⟨n, hn, hids, hcur⟩ := h.xreadgroup_eq count
  constructor
  · rw [hcur]
    simpa [Redis.xreadgroup] using hn
  · intro e x hx hle
    rw [xreadgroup_log, hids] at hx
    obtain ⟨y, hy, rfl⟩ := Option.map_eq_some_iff.mp hx
    rw [hcur] at hle
    -- past the new cursor nothing was read
    have hnot : ¬ e ∈ List.range' r.cursor n := by
      rw [List.mem_range'_1]
      omega
    rw [if_neg hnot]
    exact h.unread e y hy (by omega)

theorem Settled.of_xreadgroup {r : Redis β} (h : GroupOk r) {count e : Nat}
    (hs : Settled (r.xreadgroup count).1 e) : Settled r e := by
  obtain ⟨n, hn, hids, hcur⟩ := h.xreadgroup_eq count
  obtain ⟨x, hx, hlt, hflag⟩ := hs
  rw [xreadgroup_log, hids] at hx
  obtain ⟨y, hy, rfl⟩ := Option.map_eq_some_iff.mp hx
  rw [hcur] at hlt
  -- an entry read just now is pending and in the stream, so not settled
  by_cases hnew : r.cursor ≤ e
  · have hmem : e ∈ List.range' r.cursor n := by
      rw [List.mem_range'_1]
      omega
    rw [if_pos hmem] at hflag
    have hin := (h.unread e y hy hnew).1
    simp [hin] at hflag
  · have hnot : ¬ e ∈ List.range' r.cursor n := by
      rw [List.mem_range'_1]
      omega
    rw [if_neg hnot] at hflag
    exact ⟨y, hy, by omega, hflag⟩

/-- A pending entry was delivered. -/
theorem GroupOk.lt_cursor {r : Redis β} (h : GroupOk r) {e : Nat} (hp : r.Pending e) :
    e < r.cursor := by
  obtain ⟨x, hx, hpend⟩ := hp
  by_contra hle
  have := (h.unread e x hx (by omega)).2
  simp [hpend] at this

/-- An update of delivered entries leaves the unread ones alone. -/
theorem GroupOk.modifyEntries {r : Redis β} (h : GroupOk r) {ids : List Nat} {f : Entry → Entry}
    (hids : ∀ e ∈ ids, e < r.cursor) : GroupOk (r.modifyEntries ids f) where
  cursor_le := by
    rw [modifyEntries_length]
    exact h.cursor_le
  unread := by
    intro e x hx hcur
    rw [getElem?_modifyEntries] at hx
    obtain ⟨y, hy, rfl⟩ := Option.map_eq_some_iff.mp hx
    have hnot : e ∉ ids := fun hmem => Nat.not_lt.mpr hcur (hids e hmem)
    rw [if_neg hnot]
    exact h.unread e y hy hcur

/-- An update settles only entries it is about. -/
theorem Settled.of_modifyEntries {r : Redis β} {ids : List Nat} {f : Entry → Entry} {e : Nat}
    (hs : Settled (r.modifyEntries ids f) e) : Settled r e ∨ e ∈ ids := by
  obtain ⟨x, hx, hcur, hflag⟩ := hs
  rw [getElem?_modifyEntries] at hx
  obtain ⟨y, hy, rfl⟩ := Option.map_eq_some_iff.mp hx
  by_cases hmem : e ∈ ids
  · exact Or.inr hmem
  · rw [if_neg hmem] at hflag
    exact Or.inl ⟨y, hy, hcur, hflag⟩

/-- `XAUTOCLAIM` only drops entries that were deleted before. -/
theorem Settled.of_xautoclaim {r : Redis β} {ids : List Nat} {e : Nat}
    (hs : Settled (r.xautoclaim ids).1 e) : Settled r e := by
  obtain ⟨x, hx, hcur, hflag⟩ := hs
  rw [xautoclaim, getElem?_modifyEntries] at hx
  obtain ⟨y, hy, rfl⟩ := Option.map_eq_some_iff.mp hx
  refine ⟨y, hy, hcur, ?_⟩
  by_cases hmem : e ∈ ids
  · rw [if_pos hmem] at hflag
    simp only [or_self] at hflag
    exact Or.inr hflag
  · rwa [if_neg hmem] at hflag

end Redis
end Queue
end BrowserHeadless
