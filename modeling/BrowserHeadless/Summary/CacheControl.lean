/-
  BrowserHeadless.Summary.CacheControl

  What `parse_max_age` (src/browser/mod.rs) reads of a `Cache-Control` header, against the
  grammar of the header: the directives between commas, each a name with or without a value.

  The parser looks for a token that starts with `max-age` and stops at the first one.  So it
  is wrong where that token has a longer name and hides a `max-age` directive behind it,
  where the number does not fit 64 bits, and where it has a plus sign
  (`parseMaxAge_eq_iff`).
-/

import BrowserHeadless.Summary.Classify
import BrowserHeadless.Lib.Text

namespace BrowserHeadless
namespace Summary

open Collect (isWhitespace)

/-! ## The grammar -/

/-- A token, trimmed and in lower case. -/
def lowered (token : List Char) : List Char :=
  (Lib.trim isWhitespace token).map Char.toLower

/-- The name of a directive and its value, if it has one. -/
def directive (token : List Char) : List Char × Option (List Char) :=
  match Lib.splitOnce '=' (lowered token) with
  | some (name, value) => (Lib.trim isWhitespace name, some (Lib.trim isWhitespace value))
  | none => (lowered token, none)

/-- The directive has the name `max-age`. -/
def isMaxAge (token : List Char) : Bool := (directive token).1 == "max-age".toList

/-- The seconds a value stands for: those of a digit string, at most `u32::MAX`. -/
def seconds (value : List Char) : Option Nat :=
  if isDigits value then some (min (decimal value) (2 ^ 32 - 1)) else none

/-- The seconds of the first `max-age` directive. -/
def maxAgeSpec (cacheControl : String) : Option Nat :=
  ((cacheControl.toList.splitOn ',').find? isMaxAge).bind fun token =>
    (directive token).2.bind seconds

/-! ## What the parser stops at -/

/-- The token starts with `max-age`. -/
def startsMaxAge (token : List Char) : Bool := "max-age".toList.isPrefixOf (lowered token)

/-- What the parser reads of such a token. -/
def readMaxAge (token : List Char) : Option Nat :=
  (stripPrefix (lowered token) "max-age".toList).bind fun rest =>
    (stripPrefix (rest.dropWhile isWhitespace) "=".toList).bind fun value =>
      (parseU64 (value.dropWhile isWhitespace)).map fun v => min v (2 ^ 32 - 1)

theorem asciiLower_trim (token : List Char) :
    (asciiLower (Collect.trim (String.ofList token))).toList = lowered token := by
  rw [asciiLower, String.toList_ofList, Collect.trim, String.toList_ofList, String.toList_ofList]
  rfl

theorem stripPrefix_lowered (token : List Char) :
    startsMaxAge token = true ∧
        (∃ rest, stripPrefix (lowered token) "max-age".toList = some rest) ∨
      startsMaxAge token = false ∧ stripPrefix (lowered token) "max-age".toList = none := by
  cases hstrip : stripPrefix (lowered token) "max-age".toList with
  | some rest =>
      refine Or.inl ⟨List.isPrefixOf_iff_prefix.mpr ?_, rest, rfl⟩
      rw [stripPrefix_eq_some_iff.mp hstrip]
      exact List.prefix_append _ _
  | none =>
      refine Or.inr ⟨Bool.eq_false_iff.mpr fun hpre => ?_, rfl⟩
      exact stripPrefix_eq_none_iff.mp hstrip (List.isPrefixOf_iff_prefix.mp hpre)

/-- The loop stops at the first token that starts with `max-age`. -/
theorem maxAgeOf_eq (tokens : List (List Char)) :
    maxAgeOf tokens = (tokens.find? startsMaxAge).bind readMaxAge := by
  induction tokens with
  | nil => rfl
  | cons token tokens ih =>
      unfold maxAgeOf
      simp only [asciiLower_trim]
      rcases stripPrefix_lowered token with ⟨hstart, rest, hrest⟩ | ⟨hstart, hrest⟩
      · rw [List.find?_cons_of_pos hstart, Option.bind_some, readMaxAge, hrest, Option.bind_some]
        simp only
        cases stripPrefix (rest.dropWhile isWhitespace) "=".toList <;> rfl
      · rw [List.find?_cons_of_neg (by simp [hstart]), hrest, ih]

/-! ## One token -/

theorem trim_lowered (token : List Char) :
    Lib.trim isWhitespace (lowered token) = lowered token := by
  rw [lowered, trim_toLower, Lib.trim_trim]

/-- What stands before the first equals sign starts the token and what stands behind it ends
    the token: they are trimmed on that side. -/
theorem trimmed_of_lowered {token name value : List Char}
    (h : lowered token = name ++ '=' :: value) :
    name.dropWhile isWhitespace = name ∧ value.rdropWhile isWhitespace = value := by
  have htrim := trim_lowered token
  rw [h, Lib.trim_append_cons (by decide)] at htrim
  have hlen : (name.dropWhile isWhitespace).length ≤ name.length :=
    (List.dropWhile_suffix _).length_le
  have hlen' : (value.rdropWhile isWhitespace).length ≤ value.length :=
    (List.rdropWhile_prefix _ _).length_le
  have htotal := congrArg List.length htrim
  simp only [List.length_append, List.length_cons] at htotal
  exact ⟨List.IsSuffix.eq_of_length (List.dropWhile_suffix _) (by omega),
    List.IsPrefix.eq_of_length (List.rdropWhile_prefix _ _) (by omega)⟩

theorem directive_of_split {token name value : List Char}
    (h : lowered token = name ++ '=' :: value) (hname : '=' ∉ name) :
    directive token = (name.rdropWhile isWhitespace, some (value.dropWhile isWhitespace)) := by
  obtain ⟨hn, hv⟩ := trimmed_of_lowered h
  rw [directive, h, Lib.splitOnce_append_cons hname]
  show (Lib.trim isWhitespace name, some (Lib.trim isWhitespace value)) = _
  rw [Lib.trim, hn, ← Lib.dropWhile_rdropWhile, hv]

theorem directive_of_no_equals {token : List Char} (h : '=' ∉ lowered token) :
    directive token = (lowered token, none) := by
  rw [directive, Lib.splitOnce_eq_none_iff.mpr h]

/-- A directive of the name starts with it. -/
theorem startsMaxAge_of_isMaxAge {token : List Char} (h : isMaxAge token = true) :
    startsMaxAge token = true := by
  have hname : (directive token).1 = "max-age".toList := beq_iff_eq.mp h
  refine List.isPrefixOf_iff_prefix.mpr ?_
  by_cases hequals : '=' ∈ lowered token
  · obtain ⟨name, value, hsplit, hno⟩ := List.eq_append_cons_of_mem hequals
    rw [directive_of_split hsplit hno] at hname
    rw [hsplit, ← hname]
    exact (List.rdropWhile_prefix _ _).trans (List.prefix_append _ _)
  · rw [directive_of_no_equals hequals] at hname
    rw [show lowered token = "max-age".toList from hname]

/-- Behind a start of `max-age`, the name ends before the equals sign. -/
theorem split_of_startsMaxAge {rest name value : List Char} (hno : '=' ∉ name)
    (h : "max-age".toList ++ rest = name ++ '=' :: value) :
    ∃ m, name = "max-age".toList ++ m ∧ rest = m ++ '=' :: value ∧ '=' ∉ m := by
  obtain ⟨m, hname, hrest⟩ := Lib.append_eq_append_cons_of_notMem (by decide) h
  rw [hname, List.mem_append, not_or] at hno
  exact ⟨m, hname, hrest, hno.2⟩

/-- The clamp of `parse_max_age`. -/
def clamped (value : List Char) : Option Nat :=
  (parseU64 value).map fun v => min v (2 ^ 32 - 1)

/-- There is no equals sign at the front. -/
theorem stripEquals_eq_none {cs behind : List Char} (hno : '=' ∉ cs)
    (hne : cs ≠ [] ∨ behind = []) : stripPrefix (cs ++ behind) "=".toList = none := by
  refine stripPrefix_eq_none_iff.mpr fun hpre => ?_
  cases cs with
  | nil =>
      rw [hne.resolve_left fun h => h rfl] at hpre
      exact absurd (List.prefix_nil.mp hpre) (by decide)
  | cons c cs =>
      have heq : '=' = c := (List.cons_prefix_cons.mp hpre).1
      apply hno
      rw [heq]
      exact List.mem_cons_self

/-- Of a directive of the name the parser reads the value; of a longer name, nothing. -/
theorem readMaxAge_eq {token : List Char} (hstart : startsMaxAge token = true) :
    readMaxAge token = if isMaxAge token then (directive token).2.bind clamped else none := by
  obtain ⟨rest, hrest⟩ := List.isPrefixOf_iff_prefix.mp hstart
  rw [readMaxAge, ← hrest, stripPrefix_append, Option.bind_some]
  by_cases hequals : '=' ∈ lowered token
  · obtain ⟨name, value, hsplit, hno⟩ := List.eq_append_cons_of_mem hequals
    obtain ⟨m, rfl, rfl, hm⟩ := split_of_startsMaxAge hno (hrest.trans hsplit)
    have hlast : ("max-age".toList ++ m).rdropWhile isWhitespace =
        "max-age".toList ++ m.rdropWhile isWhitespace :=
      Lib.rdropWhile_append_cons (by decide : isWhitespace 'e' = false) "max-ag".toList m
    have hdirective := directive_of_split hsplit hno
    rw [hlast] at hdirective
    rw [isMaxAge, hdirective, Lib.dropWhile_append_cons (by decide)]
    by_cases hall : ∀ c ∈ m, isWhitespace c = true
    · have hr : ([] ++ m).rdropWhile isWhitespace = ([] : List Char).rdropWhile isWhitespace :=
        Lib.rdropWhile_append_of_all hall
      rw [List.nil_append] at hr
      rw [Lib.dropWhile_of_all hall, hr, if_pos (by rfl)]
      rfl
    · have hne : m.rdropWhile isWhitespace ≠ [] := mt List.rdropWhile_eq_nil_iff.mp hall
      have hne' : m.dropWhile isWhitespace ≠ [] := mt List.dropWhile_eq_nil_iff.mp hall
      have hno' : '=' ∉ m.dropWhile isWhitespace :=
        fun hmem => hm ((List.dropWhile_suffix isWhitespace).subset hmem)
      rw [stripEquals_eq_none hno' (Or.inl hne'), if_neg]
      · rfl
      · intro heq
        exact hne (List.append_right_eq_self.mp (beq_iff_eq.mp heq))
  · rw [directive_of_no_equals hequals]
    have hno : '=' ∉ rest.dropWhile isWhitespace := by
      intro hmem
      apply hequals
      rw [← hrest]
      exact List.mem_append_right _ ((List.dropWhile_suffix isWhitespace).subset hmem)
    have hstrip := stripEquals_eq_none hno (Or.inr rfl)
    rw [List.append_nil] at hstrip
    rw [hstrip]
    split <;> rfl

/-! ## Where the two agree -/

/-- A digit string from 2^64 on. -/
def Overflows (value : List Char) : Prop := isDigits value = true ∧ 2 ^ 64 ≤ decimal value

/-- A plus sign and a digit string below 2^64. -/
def Signed (value : List Char) : Prop :=
  ∃ ds, value = '+' :: ds ∧ isDigits ds = true ∧ decimal ds < 2 ^ 64

theorem isDigits_plus (ds : List Char) : isDigits ('+' :: ds) = false := by
  rw [isDigits, List.all_cons, show Char.isDigit '+' = false from by decide, Bool.false_and,
    Bool.and_false]

theorem dropPlus_of_ne {value : List Char} (h : ∀ ds, value ≠ '+' :: ds) :
    dropPlus value = value := by
  cases value with
  | nil => rfl
  | cons c cs =>
      rw [dropPlus]
      exact h

/-- With a plus sign the parser reads a number that the grammar does not. -/
theorem clamped_plus_iff (ds : List Char) :
    clamped ('+' :: ds) = seconds ('+' :: ds) ↔ ¬ Signed ('+' :: ds) := by
  have hseconds : seconds ('+' :: ds) = none := by
    rw [seconds, isDigits_plus]
    rfl
  rw [clamped, parseU64_eq, hseconds, show dropPlus ('+' :: ds) = ds from rfl]
  constructor
  · rintro h ⟨ds', heq, hsigned⟩
    obtain ⟨-, rfl⟩ := List.cons.inj heq
    rw [if_pos hsigned] at h
    exact absurd h (by simp)
  · intro hsigned
    rw [if_neg fun hand => hsigned ⟨ds, rfl, hand⟩]
    rfl

/-- Without one the two differ on what does not fit. -/
theorem clamped_unsigned_iff {value : List Char} (h : ∀ ds, value ≠ '+' :: ds) :
    clamped value = seconds value ↔ ¬ Overflows value := by
  rw [clamped, parseU64_eq, dropPlus_of_ne h, seconds]
  by_cases hdigits : isDigits value = true
  · simp only [hdigits, true_and, if_true]
    by_cases hfits : decimal value < 2 ^ 64
    · rw [if_pos hfits]
      exact ⟨fun _ hover => absurd hover.2 (by omega), fun _ => rfl⟩
    · rw [if_neg hfits]
      constructor
      · exact fun h => absurd h (by simp)
      · exact fun h => absurd ⟨hdigits, by omega⟩ h
  · rw [if_neg fun hand => hdigits hand.1, if_neg hdigits]
    exact ⟨fun _ hover => hdigits hover.1, fun _ => rfl⟩

theorem clamped_eq_seconds_iff (value : List Char) :
    clamped value = seconds value ↔ ¬ Overflows value ∧ ¬ Signed value := by
  by_cases hplus : ∃ ds, value = '+' :: ds
  · obtain ⟨ds, rfl⟩ := hplus
    have hover : ¬ Overflows ('+' :: ds) := fun hover =>
      absurd hover.1 (by rw [isDigits_plus]; decide)
    rw [clamped_plus_iff]
    exact ⟨fun h => ⟨hover, h⟩, fun h => h.2⟩
  · have hne := not_exists.mp hplus
    have hsigned : ¬ Signed value := by
      rintro ⟨ds, heq, -⟩
      exact hne ds heq
    rw [clamped_unsigned_iff hne]
    exact ⟨fun h => ⟨h, hsigned⟩, fun h => h.1⟩

/-- The first token that starts with `max-age` is what the grammar looks for, or there is
    nothing behind it to look for. -/
def MaxAgeAgrees (cacheControl : String) : Prop :=
  ∀ token, (cacheControl.toList.splitOn ',').find? startsMaxAge = some token →
    if isMaxAge token then
      ∀ value, (directive token).2 = some value → ¬ Overflows value ∧ ¬ Signed value
    else
      ∀ later value, (cacheControl.toList.splitOn ',').find? isMaxAge = some later →
        (directive later).2 = some value → isDigits value = false

/-- The first directive of the name, when the first that starts like it is one. -/
theorem find?_isMaxAge {tokens : List (List Char)} {token : List Char}
    (h : tokens.find? startsMaxAge = some token) (hmax : isMaxAge token = true) :
    tokens.find? isMaxAge = some token := by
  obtain ⟨-, before, behind, hsplit, hbefore⟩ := List.find?_eq_some_iff_append.mp h
  refine List.find?_eq_some_iff_append.mpr ⟨hmax, before, behind, hsplit, fun t ht => ?_⟩
  have hno := hbefore t ht
  rw [Bool.not_eq_true'] at hno ⊢
  exact Bool.eq_false_iff.mpr fun hname =>
    absurd (startsMaxAge_of_isMaxAge hname) (by rw [hno]; decide)

/-- The two on the value of one directive. -/
theorem bind_clamped_eq_iff (v : Option (List Char)) :
    v.bind clamped = v.bind seconds ↔
      ∀ value, v = some value → ¬ Overflows value ∧ ¬ Signed value := by
  cases v with
  | none => exact ⟨fun _ value h => absurd h (by simp), fun _ => rfl⟩
  | some value =>
      rw [Option.bind_some, Option.bind_some, clamped_eq_seconds_iff]
      constructor
      · intro h v hv
        obtain rfl := Option.some.inj hv
        exact h
      · exact fun h => h value rfl

/-- The grammar gives no seconds. -/
theorem spec_eq_none_iff (found : Option (List Char)) :
    (found.bind fun token => (directive token).2.bind seconds) = none ↔
      ∀ later value, found = some later → (directive later).2 = some value →
        isDigits value = false := by
  rw [Option.bind_eq_none_iff]
  refine forall_congr' fun later => ?_
  constructor
  · intro h value hlater hvalue
    have hnone := h hlater
    rw [hvalue, Option.bind_some, seconds] at hnone
    exact Bool.eq_false_iff.mpr fun hdigits => absurd hnone (by simp [hdigits])
  · intro h hlater
    rw [Option.bind_eq_none_iff]
    intro value hvalue
    rw [seconds, h value hlater hvalue]
    rfl

/-- The parser and the grammar give the same seconds exactly where `MaxAgeAgrees`. -/
theorem parseMaxAge_eq_iff (cacheControl : String) :
    parseMaxAge cacheControl = maxAgeSpec cacheControl ↔ MaxAgeAgrees cacheControl := by
  rw [parseMaxAge, maxAgeOf_eq, maxAgeSpec, MaxAgeAgrees]
  cases hfirst : (cacheControl.toList.splitOn ',').find? startsMaxAge with
  | none =>
      have hnone : (cacheControl.toList.splitOn ',').find? isMaxAge = none := by
        rw [List.find?_eq_none] at hfirst ⊢
        exact fun t ht hname => hfirst t ht (startsMaxAge_of_isMaxAge hname)
      rw [hnone]
      exact ⟨fun _ token h => absurd h (by simp), fun _ => rfl⟩
  | some token =>
      have hstart : startsMaxAge token = true := List.find?_some hfirst
      simp only [Option.some.injEq, forall_eq']
      rw [Option.bind_some, readMaxAge_eq hstart]
      by_cases hmax : isMaxAge token = true
      · -- the parser reads the directive the grammar means
        rw [find?_isMaxAge hfirst hmax, if_pos hmax, if_pos hmax, Option.bind_some]
        exact bind_clamped_eq_iff _
      · -- the parser gives up at a longer name
        rw [if_neg hmax, if_neg hmax, eq_comm]
        exact spec_eq_none_iff _

/-- A longer name hides the directive behind it. -/
theorem parseMaxAge_ne_spec : ¬ ∀ cacheControl : String,
    parseMaxAge cacheControl = maxAgeSpec cacheControl :=
  fun h => absurd (h "max-agent=1, max-age=60") (by decide)

end Summary
end BrowserHeadless
