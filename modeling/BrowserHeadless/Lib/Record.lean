/-
  BrowserHeadless.Lib.Record

  Structures as JSON objects, one entry a field.

  A structure is described by the list of its fields.  Its writer emits them in
  order.  Its reader starts from the defaults and takes the entries as they come:
  an unknown key is skipped, a repeated field is an error, and so is a required
  field that never came.  A structure whose fields are all written, under distinct
  names, is read back field by field (`decode_encode`).
-/

import BrowserHeadless.Lib.Json

namespace BrowserHeadless
namespace Lib

variable {ε σ τ α : Type}

/-- A field of the structure `σ`; `ε` is what its writer may depend on. -/
structure Field (ε σ : Type) where
  name : String
  /-- Whether the reader refuses an object without it. -/
  required : Bool
  encode : ε → σ → Json
  /-- Read the field into a structure. -/
  decode : Json → σ → Option σ
  /-- Set the field to its value in another structure. -/
  copy : (source target : σ) → σ
  Valid : σ → Prop
  decode_encode : ∀ env a b, Valid a → decode (encode env a) b = some (copy a b)

/-- The field `name` with a default, with its codec, getter and setter. -/
def Field.of (name : String) (c : Codec ε α) (get : σ → α) (set : σ → α → σ) : Field ε σ where
  name := name
  required := false
  encode := fun env a => c.encode env (get a)
  decode := fun j b => (c.decode j).map (set b)
  copy := fun a b => set b (get a)
  Valid := fun a => c.Valid (get a)
  decode_encode := by
    intro env a b h
    rw [c.decode_encode env _ h, Option.map_some]

/-- The field without its default. -/
def Field.require (f : Field ε σ) : Field ε σ := { f with required := true }

namespace Record

/-- The entries written for a structure. -/
def encode (fields : List (Field ε σ)) (env : ε) (a : σ) : List (String × Json) :=
  fields.map fun f => (f.name, f.encode env a)

/-- Read entries into `a`, the fields `seen` being set already. -/
def visit (fields : List (Field ε σ)) (seen : List String) (a : σ) :
    List (String × Json) → Option (List String × σ)
  | [] => some (seen, a)
  | (key, j) :: entries =>
      match fields.find? fun f => f.name = key with
      | none => visit fields seen a entries
      | some f =>
          if key ∈ seen then none
          else (f.decode j a).bind fun a' => visit fields (key :: seen) a' entries

/-- Read a structure from the entries of an object. -/
def decode (fields : List (Field ε σ)) (defaults : σ) (entries : List (String × Json)) : Option σ :=
  (visit fields [] defaults entries).bind fun r =>
    if ∀ f ∈ fields, f.required = true → f.name ∈ r.1 then some r.2 else none

/-- Read a structure from the items of an array, in the order of its fields; only
    trailing fields with a default can be left out. -/
def decodeSeq : List (Field ε σ) → σ → List Json → Option σ
  | [], a, [] => some a
  | [], _, _ :: _ => none
  | f :: fields, a, [] => if f.required then none else decodeSeq fields a []
  | f :: fields, a, j :: items => (f.decode j a).bind fun a' => decodeSeq fields a' items

/-- Read a structure from its JSON value. -/
def decodeJson (fields : List (Field ε σ)) (defaults : σ) : Json → Option σ
  | .obj entries => decode fields defaults entries
  | .arr items => decodeSeq fields defaults items
  | _ => none

/-- Read a structure whose last field is flattened: `inner` gets the entries that no
    field of its own takes. -/
def decodeFlat (fields : List (Field ε σ)) (defaults : σ)
    (inner : List (String × Json) → Option τ) (entries : List (String × Json)) : Option (σ × τ) :=
  (decode fields defaults entries).bind fun a =>
    (inner (entries.filter fun e => e.1 ∉ fields.map (·.name))).map fun b => (a, b)

variable {fields : List (Field ε σ)}

/-- Keys that no field has are skipped. -/
theorem visit_unknown {seen : List String} {a : σ} {entries : List (String × Json)}
    (h : ∀ e ∈ entries, e.1 ∉ fields.map (·.name)) :
    visit fields seen a entries = some (seen, a) := by
  induction entries with
  | nil => rfl
  | cons e entries ih =>
      have hnone : fields.find? (fun f => decide (f.name = e.1)) = none := by
        rw [List.find?_eq_none]
        intro f hf heq
        have hname : f.name = e.1 := by simpa using heq
        exact h e List.mem_cons_self (hname ▸ List.mem_map_of_mem hf)
      rw [visit, hnone]
      exact ih fun e' he' => h e' (.tail e he')

theorem visit_append (seen : List String) (a : σ) (entries rest : List (String × Json)) :
    visit fields seen a (entries ++ rest)
      = (visit fields seen a entries).bind fun r => visit fields r.1 r.2 rest := by
  induction entries generalizing seen a with
  | nil => rfl
  | cons e entries ih =>
      rw [List.cons_append, visit, visit]
      split
      · exact ih seen a
      · split
        · rfl
        next f _ _ =>
          cases f.decode e.2 a with
          | none => rfl
          | some a' => exact ih _ a'

/-- Read one entry into a structure. -/
def readEntry (fields : List (Field ε σ)) (a : σ) (e : String × Json) : Option σ :=
  match fields.find? fun f => f.name = e.1 with
  | none => some a
  | some f => f.decode e.2 a

variable (fields) in
/-- Entries under distinct keys are read one after the other. -/
theorem map_visit_eq_foldlM {entries : List (String × Json)} {seen : List String} (a : σ)
    (hkeys : (entries.map Prod.fst).Nodup) (hnew : ∀ e ∈ entries, e.1 ∉ seen) :
    (visit fields seen a entries).map Prod.snd = entries.foldlM (readEntry fields) a := by
  induction entries generalizing seen a with
  | nil => rfl
  | cons e entries ih =>
      rw [List.map_cons, List.nodup_cons] at hkeys
      have hrest : ∀ e' ∈ entries, e'.1 ∉ seen := fun e' he' => hnew e' (.tail e he')
      have hother : ∀ e' ∈ entries, e'.1 ∉ e.1 :: seen := by
        intro e' he' hmem
        rcases List.mem_cons.mp hmem with heq | hold
        · exact hkeys.1 (heq ▸ List.mem_map_of_mem he')
        · exact hrest e' he' hold
      rw [visit, List.foldlM_cons, readEntry]
      split
      next => exact ih a hkeys.2 hrest
      next f hf =>
          rw [if_neg (hnew e List.mem_cons_self)]
          cases f.decode e.2 a with
          | none => rfl
          | some a' => exact ih a' hkeys.2 hother

/-- An object whose keys are distinct, read as a structure that requires none of them. -/
theorem decode_eq_foldlM {entries : List (String × Json)} (defaults : σ)
    (hkeys : (entries.map Prod.fst).Nodup) (hoptional : ∀ f ∈ fields, f.required = false) :
    decode fields defaults entries = entries.foldlM (readEntry fields) defaults := by
  have hread := map_visit_eq_foldlM fields defaults hkeys
    fun e _ => List.not_mem_nil (a := e.1)
  rw [decode, ← hread]
  cases visit fields [] defaults entries with
  | none => rfl
  | some r =>
      have hall : ∀ f ∈ fields, f.required = true → f.name ∈ r.1 := by
        intro f hf hreq
        rw [hoptional f hf] at hreq
        cases hreq
      rw [Option.bind_some, if_pos hall, Option.map_some]

/-- With distinct names the field of a name is the one looked up. -/
theorem find?_name (hnodup : (fields.map (·.name)).Nodup) {f : Field ε σ} (hf : f ∈ fields) :
    fields.find? (fun g => decide (g.name = f.name)) = some f := by
  induction fields with
  | nil => cases hf
  | cons g fields ih =>
      rw [List.map_cons, List.nodup_cons] at hnodup
      rcases List.mem_cons.mp hf with rfl | hmem
      · exact List.find?_cons_of_pos (by simp)
      · have hne : g.name ≠ f.name := fun h => hnodup.1 (h ▸ List.mem_map_of_mem hmem)
        rw [List.find?_cons_of_neg (by simpa using hne)]
        exact ih hnodup.2 hmem

/-- The entry under a field's name is read by the field. -/
theorem readEntry_name (hnodup : (fields.map (·.name)).Nodup) {f : Field ε σ} (hf : f ∈ fields)
    (a : σ) (j : Json) : readEntry fields a (f.name, j) = f.decode j a := by
  rw [readEntry, find?_name hnodup hf]

/-- Reading what was written for some of the fields sets these fields. -/
theorem visit_encode (hnodup : (fields.map (·.name)).Nodup) {a : σ} {fs : List (Field ε σ)}
    (hsub : fs ⊆ fields) (hfs : (fs.map (·.name)).Nodup) (hvalid : ∀ f ∈ fs, f.Valid a) (env : ε)
    (b : σ) (seen : List String) (hseen : ∀ f ∈ fs, f.name ∉ seen) :
    visit fields seen b (encode fs env a)
      = some ((fs.map (·.name)).reverse ++ seen, fs.foldl (fun acc f => f.copy a acc) b) := by
  induction fs generalizing b seen with
  | nil => rfl
  | cons f fs ih =>
      rw [List.map_cons, List.nodup_cons] at hfs
      have hfind := find?_name hnodup (hsub List.mem_cons_self)
      have hnew := hseen f List.mem_cons_self
      have hread := f.decode_encode env a b (hvalid f List.mem_cons_self)
      have hrest : ∀ g ∈ fs, g.name ∉ f.name :: seen := by
        intro g hg hmem
        rcases List.mem_cons.mp hmem with heq | hold
        · exact hfs.1 (heq ▸ List.mem_map_of_mem hg)
        · exact hseen g (.tail f hg) hold
      have hrun := ih (fun g hg => hsub (.tail f hg)) hfs.2 (fun g hg => hvalid g (.tail f hg))
        (f.copy a b) (f.name :: seen) hrest
      rw [encode] at hrun
      simp only [encode, List.map_cons, visit, hfind, if_neg hnew, hread, Option.bind_some, hrun,
        List.reverse_cons, List.append_assoc, List.singleton_append, List.foldl_cons]

/-- What was written for some fields, among them the required ones, is read as the
    defaults with these fields set; entries under other keys after it do not
    matter. -/
theorem decode_encode_append (hnodup : (fields.map (·.name)).Nodup) {fs : List (Field ε σ)}
    (hsub : fs ⊆ fields) (hfs : (fs.map (·.name)).Nodup)
    (hrequired : ∀ f ∈ fields, f.required = true → f ∈ fs) {a : σ} (env : ε) (defaults : σ)
    (hvalid : ∀ f ∈ fs, f.Valid a) {rest : List (String × Json)}
    (hrest : ∀ e ∈ rest, e.1 ∉ fields.map (·.name)) :
    decode fields defaults (encode fs env a ++ rest)
      = some (fs.foldl (fun acc f => f.copy a acc) defaults) := by
  have hread := visit_encode hnodup hsub hfs hvalid env defaults [] fun _ _ => List.not_mem_nil
  rw [decode, visit_append, hread, Option.bind_some, visit_unknown hrest, Option.bind_some, if_pos]
  intro f hf hreq
  simpa using ⟨f, hrequired f hf hreq, rfl⟩

/-- What was written for a structure without the fields that were skipped. -/
theorem decode_encode_subset (hnodup : (fields.map (·.name)).Nodup) {fs : List (Field ε σ)}
    (hsub : fs ⊆ fields) (hfs : (fs.map (·.name)).Nodup)
    (hrequired : ∀ f ∈ fields, f.required = true → f ∈ fs) {a : σ} (env : ε) (defaults : σ)
    (hvalid : ∀ f ∈ fs, f.Valid a) :
    decode fields defaults (encode fs env a)
      = some (fs.foldl (fun acc f => f.copy a acc) defaults) := by
  have hnil : ∀ e ∈ ([] : List (String × Json)), e.1 ∉ fields.map (·.name) :=
    fun _ he => absurd he List.not_mem_nil
  have hread := decode_encode_append hnodup hsub hfs hrequired env defaults hvalid hnil
  rwa [List.append_nil] at hread

/-- What was written for a structure is read as the defaults with every field set to
    its value. -/
theorem decode_encode (hnodup : (fields.map (·.name)).Nodup) {a : σ} (env : ε) (defaults : σ)
    (hvalid : ∀ f ∈ fields, f.Valid a) :
    decode fields defaults (encode fields env a)
      = some (fields.foldl (fun acc f => f.copy a acc) defaults) :=
  decode_encode_subset hnodup (List.Subset.refl fields) hnodup (fun _ hf _ => hf) env defaults
    hvalid

/-- The flattened part gets exactly the entries written after the fields. -/
theorem decodeFlat_encode (hnodup : (fields.map (·.name)).Nodup) {a : σ} (env : ε) (defaults : σ)
    (hvalid : ∀ f ∈ fields, f.Valid a) (inner : List (String × Json) → Option τ)
    {rest : List (String × Json)} (hrest : ∀ e ∈ rest, e.1 ∉ fields.map (·.name)) :
    decodeFlat fields defaults inner (encode fields env a ++ rest)
      = (inner rest).map fun b => (fields.foldl (fun acc f => f.copy a acc) defaults, b) := by
  have hown : ∀ e ∈ encode fields env a, e.1 ∈ fields.map (·.name) := by
    intro e he
    obtain ⟨f, hf, rfl⟩ := List.mem_map.mp he
    exact List.mem_map_of_mem hf
  have hfilter : (encode fields env a ++ rest).filter (fun e => e.1 ∉ fields.map (·.name))
      = rest := by
    rw [List.filter_append, List.filter_eq_nil_iff.mpr, List.filter_eq_self.mpr, List.nil_append]
    · intro e he
      exact decide_eq_true (hrest e he)
    · intro e he
      simpa using hown e he
  have hread := decode_encode_append hnodup (List.Subset.refl fields) hnodup (fun _ hf _ => hf) env
    defaults hvalid hrest
  rw [decodeFlat, hread, hfilter, Option.bind_some]

end Record
end Lib
end BrowserHeadless
