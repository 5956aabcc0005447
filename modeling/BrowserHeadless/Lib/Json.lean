/-
  BrowserHeadless.Lib.Json

  JSON values, and codecs between them and the values of a type.

  A `Codec` carries its round trip: what it encodes decodes to the value it came
  from, as long as the value is `Valid`.  The codecs follow serde at the level of
  JSON values: a reader of floats takes integers too, `null` is the absent value of
  an optional type, and a float that is not finite has no JSON form and is written
  as `null`.
-/

import BrowserHeadless.Lib.Float
import BrowserHeadless.Lib.HashMap

namespace BrowserHeadless
namespace Lib

/-! ## Values -/

/-- A JSON number. -/
inductive Number where
  | int (n : Int)
  | float (x : F64) (finite : x.isFinite = true)
deriving DecidableEq

/-- A JSON value; an object keeps the order of its entries, and repeated keys. -/
inductive Json where
  | null
  | bool (b : Bool)
  | num (n : Number)
  | str (s : String)
  | arr (items : List Json)
  | obj (entries : List (String × Json))

/-! ## Codecs -/

/-- How the values of a type are written and read.  What is written may depend on
    `ε`, as it does for a hash map on the order of its entries. -/
structure Codec (ε α : Type) where
  encode : ε → α → Json
  decode : Json → Option α
  /-- The values that survive the round trip. -/
  Valid : α → Prop
  decode_encode : ∀ env a, Valid a → decode (encode env a) = some a

namespace Codec

variable {ε α : Type}

def bool : Codec ε Bool where
  encode := fun _ b => .bool b
  decode
    | .bool b => some b
    | _ => none
  Valid := fun _ => True
  decode_encode := fun _ _ _ => rfl

def string : Codec ε String where
  encode := fun _ s => .str s
  decode
    | .str s => some s
    | _ => none
  Valid := fun _ => True
  decode_encode := fun _ _ _ => rfl

/-- A number that is an integer in `[0, bound)`. -/
def natBelow (bound : Nat) : Json → Option Nat
  | .num (.int n) => if 0 ≤ n ∧ n < bound then some n.toNat else none
  | _ => none

theorem natBelow_int {bound n : Nat} (h : n < bound) :
    natBelow bound (.num (.int n)) = some n := by
  have hrange : (0 : Int) ≤ n ∧ (n : Int) < bound := by omega
  rw [natBelow, if_pos hrange, Int.toNat_natCast]

/-- `u16`, with its values as natural numbers. -/
def u16 : Codec ε Nat where
  encode := fun _ n => .num (.int n)
  decode := natBelow (2 ^ 16)
  Valid := fun n => n < 2 ^ 16
  decode_encode := fun _ _ h => natBelow_int h

def u32 : Codec ε UInt32 where
  encode := fun _ n => .num (.int n.toNat)
  decode := fun j => (natBelow (2 ^ 32) j).map UInt32.ofNat
  Valid := fun _ => True
  decode_encode := by
    intro _ n _
    rw [natBelow_int n.toNat_lt, Option.map_some, UInt32.ofNat_toNat]

def u64 : Codec ε UInt64 where
  encode := fun _ n => .num (.int n.toNat)
  decode := fun j => (natBelow (2 ^ 64) j).map UInt64.ofNat
  Valid := fun _ => True
  decode_encode := by
    intro _ n _
    rw [natBelow_int n.toNat_lt, Option.map_some, UInt64.ofNat_toNat]

def f64 : Codec ε F64 where
  encode := fun _ x => if h : x.isFinite = true then .num (.float x h) else .null
  decode
    | .num (.float x _) => some x
    | .num (.int n) => some (.ofInt n)
    | _ => none
  Valid := fun x => x.isFinite = true
  decode_encode := by
    intro _ x hx
    rw [dif_pos hx]

/-- Any value but `null`. -/
def value : Codec ε Json where
  encode := fun _ j => j
  decode := some
  Valid := fun j => j ≠ .null
  decode_encode := fun _ _ _ => rfl

/-- `Option`: `null` is `None`. -/
def option (c : Codec ε α) (hnull : ∀ env a, c.Valid a → c.encode env a ≠ .null) :
    Codec ε (Option α) where
  encode env
    | none => .null
    | some a => c.encode env a
  decode
    | .null => some none
    | j => (c.decode j).map some
  Valid := fun o => ∀ a, o = some a → c.Valid a
  decode_encode := by
    intro env o hvalid
    cases o with
    | none => rfl
    | some a =>
        have ha := hvalid a rfl
        dsimp only
        split
        next hn => exact absurd hn (hnull env a ha)
        next => rw [c.decode_encode env a ha, Option.map_some]

def optionBool : Codec ε (Option Bool) := option bool fun _ _ _ => Json.noConfusion

def optionString : Codec ε (Option String) := option string fun _ _ _ => Json.noConfusion

def optionU16 : Codec ε (Option Nat) := option u16 fun _ _ _ => Json.noConfusion

def optionU32 : Codec ε (Option UInt32) := option u32 fun _ _ _ => Json.noConfusion

def optionU64 : Codec ε (Option UInt64) := option u64 fun _ _ _ => Json.noConfusion

theorem f64_encode_ne_null (env : ε) (x : F64) (hx : x.isFinite = true) :
    f64.encode env x ≠ .null := by
  have hnum : f64.encode env x = .num (.float x hx) := dif_pos hx
  rw [hnum]
  exact Json.noConfusion

def optionF64 : Codec ε (Option F64) := option f64 f64_encode_ne_null

def optionValue : Codec ε (Option Json) := option value fun _ _ h => h

/-- `Vec`. -/
def list (c : Codec ε α) : Codec ε (List α) where
  encode := fun env as => .arr (as.map (c.encode env))
  decode
    | .arr items => items.mapM c.decode
    | _ => none
  Valid := fun as => ∀ a ∈ as, c.Valid a
  decode_encode := by
    intro env as hvalid
    show (as.map (c.encode env)).mapM c.decode = some as
    rw [List.mapM_map]
    induction as with
    | nil => rfl
    | cons a as ih =>
        have ha := c.decode_encode env a (hvalid a List.mem_cons_self)
        rw [List.mapM_cons, Function.comp_apply, ha, ih fun b hb => hvalid b (.tail a hb)]
        rfl

/-- Read the entries of a `HashMap` in their order; a later entry replaces an
    earlier one with its key. -/
def insertAll (c : Codec ε α) (m : HashMap String α) :
    List (String × Json) → Option (HashMap String α)
  | [] => some m
  | (k, j) :: entries => (c.decode j).bind fun a => insertAll c (m.insert k a) entries

theorem insertAll_map (c : Codec ε α) (env : ε) {es : List (Σ _ : String, α)}
    (hes : ∀ e ∈ es, c.Valid e.2) (m : HashMap String α) :
    insertAll c m (es.map fun e => (e.1, c.encode env e.2))
      = some (es.foldl (fun acc e => acc.insert e.1 e.2) m) := by
  induction es generalizing m with
  | nil => rfl
  | cons e es ih =>
      rw [List.map_cons, insertAll, c.decode_encode env e.2 (hes e List.mem_cons_self)]
      exact ih (fun e' he' => hes e' (.tail e he')) _

/-- `HashMap`, written in an order of its entries. -/
def hashMap (order : ε → HashMap.Order String α) (c : Codec ε α) : Codec ε (HashMap String α) where
  encode := fun env m => .obj (((order env).entries m).map fun e => (e.1, c.encode env e.2))
  decode
    | .obj entries => insertAll c ∅ entries
    | _ => none
  Valid := fun m => ∀ k v, m.lookup k = some v → c.Valid v
  decode_encode := by
    intro env m hvalid
    have hentries : ∀ e ∈ (order env).entries m, c.Valid e.2 := by
      intro e he
      exact hvalid e.1 e.2 ((order env).lookup_of_mem he)
    show insertAll c ∅ _ = some m
    rw [insertAll_map c env hentries, (order env).foldl_insert]

/-- A field-less enumeration, by the names of its variants. -/
def variant [DecidableEq α] (variants : List α) (name : α → String)
    (hname : ∀ a, variants.find? (fun b => name b = name a) = some a) : Codec ε α where
  encode := fun _ a => .str (name a)
  decode
    | .str s | .obj [(s, .null)] | .obj [(s, .obj [])] => variants.find? fun b => name b = s
    | _ => none
  Valid := fun _ => True
  decode_encode := fun _ a _ => hname a

/-! ## What survives -/

@[simp] theorem valid_bool (b : Bool) : (bool : Codec ε Bool).Valid b := True.intro

@[simp] theorem valid_string (s : String) : (string : Codec ε String).Valid s := True.intro

@[simp] theorem valid_u32 (n : UInt32) : (u32 : Codec ε UInt32).Valid n := True.intro

@[simp] theorem valid_u64 (n : UInt64) : (u64 : Codec ε UInt64).Valid n := True.intro

@[simp] theorem valid_variant [DecidableEq α] {variants : List α} {name : α → String}
    {hname : ∀ a, variants.find? (fun b => name b = name a) = some a} (a : α) :
    (variant variants name hname : Codec ε α).Valid a := True.intro

/-- A type whose values all survive, with values that may be absent. -/
theorem valid_option {c : Codec ε α} {hnull : ∀ env a, c.Valid a → c.encode env a ≠ .null}
    (hc : ∀ a, c.Valid a) (o : Option α) : (option c hnull).Valid o :=
  fun a _ => hc a

@[simp] theorem valid_optionBool (o : Option Bool) :
    (optionBool : Codec ε (Option Bool)).Valid o := valid_option valid_bool o

@[simp] theorem valid_optionString (o : Option String) :
    (optionString : Codec ε (Option String)).Valid o := valid_option valid_string o

@[simp] theorem valid_optionU32 (o : Option UInt32) :
    (optionU32 : Codec ε (Option UInt32)).Valid o := valid_option valid_u32 o

@[simp] theorem valid_optionU64 (o : Option UInt64) :
    (optionU64 : Codec ε (Option UInt64)).Valid o := valid_option valid_u64 o

@[simp] theorem valid_optionF64 (o : Option F64) :
    (optionF64 : Codec ε (Option F64)).Valid o ↔ o.all F64.isFinite = true := by
  cases o with
  | none => simp [optionF64, option]
  | some x => simp [optionF64, option, f64]

@[simp] theorem valid_list_string (ss : List String) :
    (list string : Codec ε (List String)).Valid ss := fun _ _ => True.intro

@[simp] theorem valid_hashMap_string {order : ε → HashMap.Order String String}
    (m : HashMap String String) : (hashMap order string : Codec ε _).Valid m :=
  fun _ _ _ => True.intro

end Codec
end Lib
end BrowserHeadless
