/-
  BrowserHeadless.Security.Hsts

  `parse_hsts` (src/browser/security.rs): the directives of a `Strict-Transport-Security`
  header.

  The two flags are recognised in any case, `max-age` only as `max-age` and as `Max-Age`.
  So a header keeps its reading in every case exactly when it carries no number under the
  name (`parseHsts_caseInsensitive_iff`).
-/

import BrowserHeadless.Summary.Classify
import BrowserHeadless.Lib.Text

namespace BrowserHeadless
namespace Security

open Collect (isWhitespace eqIgnoreAsciiCase)
open Summary (stripPrefix parseU64 trim_toLower)
open Lib (trim)

/-- `HstsAnalysis`. -/
structure HstsAnalysis where
  maxAge : Option Nat := none
  includeSubdomains : Bool := false
  preload : Bool := false
  effective : Bool := false
deriving DecidableEq, Repr

/-- What stands behind the equals sign of a `max-age` directive: the condition of the
    `if let`. -/
def maxAgeRest (tok : List Char) : Option (List Char) :=
  ((stripPrefix tok "max-age".toList).or (stripPrefix tok "Max-Age".toList)).bind
    fun r => stripPrefix (r.dropWhile isWhitespace) "=".toList

/-- The number of a `max-age` value, in quotes or not. -/
def maxAgeNumber (rest : List Char) : Option Nat :=
  parseU64 (trim (· == '"') (trim isWhitespace rest))

/-- One directive: the body of the `for`. -/
def noteHsts (a : HstsAnalysis) (raw : List Char) : HstsAnalysis :=
  let tok := trim isWhitespace raw
  match maxAgeRest tok with
  | some rest => { a with maxAge := maxAgeNumber rest }
  | none =>
      if eqIgnoreAsciiCase (String.ofList tok) "includeSubDomains" then
        { a with includeSubdomains := true }
      else if eqIgnoreAsciiCase (String.ofList tok) "preload" then { a with preload := true }
      else a

/-- `parse_hsts`. -/
def parseHsts (value : String) : HstsAnalysis :=
  let a := (value.toList.splitOn ';').foldl noteHsts {}
  { a with effective := a.maxAge.any (0 < ·) }

example : parseHsts "max-age=\"15552000\"; INCLUDESUBDOMAINS" =
    { maxAge := some 15552000, includeSubdomains := true, effective := true } := by
  decide

/-! ## What a header says -/

/-- The directives of a header. -/
def directives (value : String) : List (List Char) := value.toList.splitOn ';'

/-- A directive is the flag `kw`, in any case. -/
def isFlag (kw : String) (raw : List Char) : Bool :=
  eqIgnoreAsciiCase (String.ofList (trim isWhitespace raw)) kw

/-- The number after one more directive. -/
def nextNumber (m : Option Nat) (raw : List Char) : Option Nat :=
  ((maxAgeRest (trim isWhitespace raw)).map maxAgeNumber).getD m

theorem isFlag_iff {kw : String} {raw : List Char} :
    isFlag kw raw = true ↔
      (trim isWhitespace raw).map Char.toLower = kw.toList.map Char.toLower := by
  rw [isFlag, eqIgnoreAsciiCase, beq_iff_eq, asciiLower, asciiLower, String.toList_ofList,
    ← String.toList_inj, String.toList_ofList, String.toList_ofList]

/-- A `max-age` directive starts with an m. -/
theorem head_of_maxAgeRest {tok rest : List Char} (h : maxAgeRest tok = some rest) :
    (tok.map Char.toLower).head? = some 'm' := by
  obtain ⟨r, hr, -⟩ := Option.bind_eq_some_iff.mp h
  rcases Option.or_eq_some_iff.mp hr with hlower | ⟨-, hupper⟩
  · rw [Summary.stripPrefix_eq_some_iff.mp hlower]
    rfl
  · rw [Summary.stripPrefix_eq_some_iff.mp hupper]
    rfl

/-- What the loop does with a directive: the flags and the number do not meet. -/
theorem noteHsts_eq (a : HstsAnalysis) (raw : List Char) :
    noteHsts a raw =
      { a with
        maxAge := nextNumber a.maxAge raw
        includeSubdomains := a.includeSubdomains || isFlag "includeSubDomains" raw
        preload := a.preload || isFlag "preload" raw } := by
  have hfirst : ∀ {kw : String}, isFlag kw raw = true →
      ((trim isWhitespace raw).map Char.toLower).head? = (kw.toList.map Char.toLower).head? :=
    fun hkw => by rw [isFlag_iff.mp hkw]
  have hsub : ∀ {kw : String} {c : Char}, (kw.toList.map Char.toLower).head? ≠ some c →
      ((trim isWhitespace raw).map Char.toLower).head? = some c → isFlag kw raw = false := by
    intro kw c hne hhead
    exact Bool.eq_false_iff.mpr fun hkw => hne (by rw [← hfirst hkw, hhead])
  simp only [noteHsts]
  cases hrest : maxAgeRest (trim isWhitespace raw) with
  | some rest =>
      have hm := head_of_maxAgeRest hrest
      rw [nextNumber, hrest, hsub (by decide) hm, hsub (by decide) hm, Bool.or_false,
        Bool.or_false]
      rfl
  | none =>
      rw [nextNumber, hrest]
      show (if isFlag "includeSubDomains" raw = true then _
        else if isFlag "preload" raw = true then _ else a) = _
      by_cases hinclude : isFlag "includeSubDomains" raw = true
      · have hpreload : isFlag "preload" raw = false :=
          hsub (by decide) ((hfirst hinclude).trans (by decide : _ = some 'i'))
        rw [if_pos hinclude, hinclude, hpreload, Bool.or_true, Bool.or_false]
        rfl
      · rw [if_neg hinclude, Bool.eq_false_iff.mpr hinclude, Bool.or_false]
        by_cases hpreload : isFlag "preload" raw = true
        · rw [if_pos hpreload, hpreload, Bool.or_true]
          rfl
        · rw [if_neg hpreload, Bool.eq_false_iff.mpr hpreload, Bool.or_false]
          rfl

/-- The whole loop. -/
theorem foldl_noteHsts (raws : List (List Char)) (a : HstsAnalysis) :
    raws.foldl noteHsts a =
      { a with
        maxAge := raws.foldl nextNumber a.maxAge
        includeSubdomains := a.includeSubdomains || raws.any (isFlag "includeSubDomains")
        preload := a.preload || raws.any (isFlag "preload") } := by
  induction raws generalizing a with
  | nil => simp
  | cons raw raws ih =>
      rw [List.foldl_cons, ih, noteHsts_eq, List.foldl_cons, List.any_cons, List.any_cons,
        Bool.or_assoc, Bool.or_assoc]

/-- The number of a header. -/
def headerNumber (value : String) : Option Nat := (directives value).foldl nextNumber none

theorem parseHsts_eq (value : String) :
    parseHsts value =
      { maxAge := headerNumber value
        includeSubdomains := (directives value).any (isFlag "includeSubDomains")
        preload := (directives value).any (isFlag "preload")
        effective := (headerNumber value).any (0 < ·) } := by
  show ({ (directives value).foldl noteHsts {} with
    effective := ((directives value).foldl noteHsts {}).maxAge.any (0 < ·) } : HstsAnalysis) = _
  rw [foldl_noteHsts]
  simp only [Bool.false_or]
  rfl

/-! ## In another case -/

/-- The number of a directive whose name is `max-age` in any case. -/
def maxAgeAnyCase (raw : List Char) : Option Nat :=
  (maxAgeRest ((trim isWhitespace raw).map Char.toLower)).bind maxAgeNumber

theorem trim_toUpper (s : List Char) :
    trim isWhitespace (s.map Char.toUpper) = (trim isWhitespace s).map Char.toUpper :=
  Lib.trim_map (Lib.apply_toUpper fun _ hc => Collect.isWhitespace_of_isAlpha hc) s

theorem map_toLower_toLower (s : List Char) :
    (s.map Char.toLower).map Char.toLower = s.map Char.toLower := by
  rw [List.map_map]
  exact List.map_congr_left fun c _ => Lib.toLower_toLower c

theorem map_toLower_toUpper (s : List Char) :
    (s.map Char.toUpper).map Char.toLower = s.map Char.toLower := by
  rw [List.map_map]
  exact List.map_congr_left fun c _ => Lib.toLower_toUpper c

theorem maxAgeAnyCase_toLower (raw : List Char) :
    maxAgeAnyCase (raw.map Char.toLower) = maxAgeAnyCase raw := by
  rw [maxAgeAnyCase, trim_toLower, map_toLower_toLower, maxAgeAnyCase]

theorem isFlag_toLower (kw : String) (raw : List Char) :
    isFlag kw (raw.map Char.toLower) = isFlag kw raw := by
  rw [Bool.eq_iff_iff, isFlag_iff, isFlag_iff, trim_toLower, map_toLower_toLower]

theorem maxAgeNumber_toLower (rest : List Char) :
    maxAgeNumber (rest.map Char.toLower) = maxAgeNumber rest := by
  have hquote : ∀ c : Char, (c.toLower == '"') = (c == '"') := fun c => by
    rw [Bool.eq_iff_iff, beq_iff_eq, beq_iff_eq]
    exact Lib.toLower_eq_iff (by decide) c
  rw [maxAgeNumber, trim_toLower, Lib.trim_map hquote, Summary.parseU64_toLower, maxAgeNumber]

/-- A directive the parser recognises is one in any case, with the same number. -/
theorem maxAgeAnyCase_of_maxAgeRest {raw rest : List Char}
    (h : maxAgeRest (trim isWhitespace raw) = some rest) :
    maxAgeAnyCase raw = maxAgeNumber rest := by
  obtain ⟨r, hr, hrest⟩ := Option.bind_eq_some_iff.mp h
  have hequals := Summary.stripPrefix_eq_some_iff.mp hrest
  have hdrop : (r.map Char.toLower).dropWhile isWhitespace =
      "=".toList ++ rest.map Char.toLower := by
    rw [Lib.dropWhile_map_of
      (Lib.apply_toLower fun _ hc => Collect.isWhitespace_of_isAlpha hc), hequals, List.map_append]
    rfl
  have hname : (trim isWhitespace raw).map Char.toLower =
      "max-age".toList ++ r.map Char.toLower := by
    rcases Option.or_eq_some_iff.mp hr with hlower | ⟨-, hupper⟩
    · rw [Summary.stripPrefix_eq_some_iff.mp hlower, List.map_append]
      rfl
    · rw [Summary.stripPrefix_eq_some_iff.mp hupper, List.map_append]
      rfl
  rw [maxAgeAnyCase, maxAgeRest, hname, Summary.stripPrefix_append]
  show (stripPrefix ((r.map Char.toLower).dropWhile isWhitespace) "=".toList).bind maxAgeNumber = _
  rw [hdrop, Summary.stripPrefix_append, Option.bind_some, maxAgeNumber_toLower]

/-- In capitals the name is not recognised. -/
theorem maxAgeRest_toUpper (tok : List Char) : maxAgeRest (tok.map Char.toUpper) = none := by
  have hno : 'a' ∉ tok.map Char.toUpper := by
    intro hmem
    obtain ⟨c, -, hc⟩ := List.mem_map.mp hmem
    have hnat := congrArg Char.toNat hc
    rw [Lib.toNat_toUpper, show 'a'.toNat = 97 from rfl] at hnat
    split at hnat <;> omega
  have hstrip : ∀ p : List Char, 'a' ∈ p → stripPrefix (tok.map Char.toUpper) p = none :=
    fun p hp => Summary.stripPrefix_eq_none_iff.mpr fun hpre => hno (hpre.subset hp)
  rw [maxAgeRest, hstrip _ (by decide), hstrip _ (by decide)]
  rfl

/-- The same header in another case has the same directives in another case. -/
theorem directives_of_asciiLower_eq {v v' : String} (h : asciiLower v' = asciiLower v) :
    (directives v').map (List.map Char.toLower) = (directives v).map (List.map Char.toLower) := by
  have hlower := congrArg String.toList h
  rw [asciiLower, asciiLower, String.toList_ofList, String.toList_ofList] at hlower
  have hsemi : ∀ c : Char, c.toLower = ';' ↔ c = ';' := Lib.toLower_eq_iff (by decide)
  rw [directives, directives, ← Lib.splitOn_map hsemi, ← Lib.splitOn_map hsemi, hlower]

theorem any_isFlag_of_asciiLower_eq {v v' : String} (h : asciiLower v' = asciiLower v)
    (kw : String) : (directives v').any (isFlag kw) = (directives v).any (isFlag kw) := by
  have hany : ∀ raws : List (List Char),
      (raws.map (List.map Char.toLower)).any (isFlag kw) = raws.any (isFlag kw) := by
    intro raws
    rw [List.any_map, show isFlag kw ∘ List.map Char.toLower = isFlag kw from
      funext (isFlag_toLower kw)]
  rw [← hany, directives_of_asciiLower_eq h, hany]

/-- So the whole reading is the same as soon as the number is. -/
theorem parseHsts_eq_iff {v v' : String} (h : asciiLower v' = asciiLower v) :
    parseHsts v' = parseHsts v ↔ headerNumber v' = headerNumber v := by
  rw [parseHsts_eq, parseHsts_eq, any_isFlag_of_asciiLower_eq h, any_isFlag_of_asciiLower_eq h]
  constructor
  · exact fun heq => congrArg HstsAnalysis.maxAge heq
  · intro heq
    rw [heq]

/-! ## Headers that read the same in every case -/

/-- Without a number under the name, in any case, nothing is read. -/
theorem foldl_nextNumber_none {raws : List (List Char)}
    (h : ∀ raw ∈ raws, maxAgeAnyCase raw = none) : raws.foldl nextNumber none = none := by
  induction raws with
  | nil => rfl
  | cons raw raws ih =>
      rw [List.forall_mem_cons] at h
      have hnext : nextNumber none raw = none := by
        rw [nextNumber]
        cases hrest : maxAgeRest (trim isWhitespace raw) with
        | none => rfl
        | some rest =>
            rw [Option.map_some, Option.getD_some, ← maxAgeAnyCase_of_maxAgeRest hrest, h.1]
      rw [List.foldl_cons, hnext, ih h.2]

/-- Directives in capitals leave the number as it is. -/
theorem foldl_nextNumber_toUpper (raws : List (List Char)) (m : Option Nat) :
    (raws.map (List.map Char.toUpper)).foldl nextNumber m = m := by
  induction raws generalizing m with
  | nil => rfl
  | cons raw raws ih =>
      rw [List.map_cons, List.foldl_cons, nextNumber, trim_toUpper, maxAgeRest_toUpper]
      exact ih m

/-- A directive in lower case gives its number. -/
theorem nextNumber_toLower {raw : List Char} {n : Nat} (h : maxAgeAnyCase raw = some n)
    (m : Option Nat) : nextNumber m (raw.map Char.toLower) = some n := by
  obtain ⟨rest, hrest, hnumber⟩ := Option.bind_eq_some_iff.mp h
  rw [nextNumber, trim_toLower, hrest, Option.map_some, Option.getD_some, hnumber]

/-- The header whose directives are in capitals, and the one that has one of them in lower
    case, are the same header in another case. -/
theorem exists_variant (v : String) (raws : List (List Char))
    (h : raws.map (List.map Char.toLower) = (directives v).map (List.map Char.toLower)) :
    ∃ v', asciiLower v' = asciiLower v ∧ directives v' = raws := by
  have hne : raws ≠ [] := by
    intro hnil
    rw [hnil, List.map_nil] at h
    exact List.splitOn_ne_nil ';' v.toList (List.map_eq_nil_iff.mp h.symm)
  have hsemi : ∀ raw ∈ raws, ';' ∉ raw := by
    intro raw hraw hmem
    have hlower : raw.map Char.toLower ∈ (directives v).map (List.map Char.toLower) := by
      rw [← h]
      exact List.mem_map_of_mem hraw
    obtain ⟨raw', hraw', heq⟩ := List.mem_map.mp hlower
    have hmem' : ';' ∈ raw'.map Char.toLower := by
      rw [heq]
      exact List.mem_map.mpr ⟨';', hmem, rfl⟩
    obtain ⟨c, hc, hcsemi⟩ := List.mem_map.mp hmem'
    rw [Lib.toLower_eq_iff (by decide)] at hcsemi
    rw [hcsemi] at hc
    exact Lib.notMem_of_mem_splitOn hraw' hc
  refine ⟨String.ofList ([';'].intercalate raws), ?_, ?_⟩
  · have hjoin : [';'].intercalate (v.toList.splitOn ';') = v.toList :=
      List.intercalate_splitOn ';'
    rw [asciiLower, asciiLower, String.toList_ofList, Lib.map_intercalate, h, ← Lib.map_intercalate,
      directives, hjoin]
  · rw [directives, String.toList_ofList, List.splitOn_intercalate ';' hsemi hne]

/-- A header reads the same in every case exactly when it has no number under the name
    `max-age`, written in any case. -/
theorem parseHsts_caseInsensitive_iff (v : String) :
    (∀ v' : String, asciiLower v' = asciiLower v → parseHsts v' = parseHsts v) ↔
      ∀ raw ∈ directives v, maxAgeAnyCase raw = none := by
  constructor
  · intro hsame raw hraw
    by_contra hsome
    obtain ⟨n, hn⟩ := Option.ne_none_iff_exists'.mp hsome
    obtain ⟨before, behind, hsplit⟩ := List.append_of_mem hraw
    -- in capitals the header has no number
    obtain ⟨vUpper, hupper, hdirUpper⟩ :=
      exists_variant v ((directives v).map (List.map Char.toUpper)) (by
        rw [List.map_map]
        exact List.map_congr_left fun raw _ => map_toLower_toUpper raw)
    have hnone : headerNumber vUpper = none := by
      rw [headerNumber, hdirUpper, foldl_nextNumber_toUpper]
    -- with this directive alone in lower case it has the directive's
    obtain ⟨vLower, hlower, hdirLower⟩ :=
      exists_variant v
        (before.map (List.map Char.toUpper) ++
          raw.map Char.toLower :: behind.map (List.map Char.toUpper)) (by
        rw [hsplit]
        simp only [List.map_append, List.map_cons, List.map_map, Function.comp_def,
          Lib.toLower_toUpper, Lib.toLower_toLower])
    have hsome' : headerNumber vLower = some n := by
      rw [headerNumber, hdirLower, List.foldl_append, List.foldl_cons, nextNumber_toLower hn,
        foldl_nextNumber_toUpper]
    have hboth := (parseHsts_eq_iff hupper).mp (hsame vUpper hupper)
    rw [← (parseHsts_eq_iff hlower).mp (hsame vLower hlower), hnone, hsome'] at hboth
    exact absurd hboth (by simp)
  · intro hno v' hv'
    have hno' : ∀ raw ∈ directives v', maxAgeAnyCase raw = none := by
      intro raw hraw
      have hmem : raw.map Char.toLower ∈ (directives v).map (List.map Char.toLower) := by
        rw [← directives_of_asciiLower_eq hv']
        exact List.mem_map_of_mem hraw
      obtain ⟨raw', hraw', heq⟩ := List.mem_map.mp hmem
      rw [← maxAgeAnyCase_toLower, ← heq, maxAgeAnyCase_toLower, hno raw' hraw']
    rw [parseHsts_eq_iff hv', headerNumber, headerNumber, foldl_nextNumber_none hno',
      foldl_nextNumber_none hno]

/-- In capitals `max-age` is not recognised. -/
theorem parseHsts_not_caseInsensitive :
    ¬ ∀ v v' : String, asciiLower v' = asciiLower v → parseHsts v' = parseHsts v :=
  fun h => absurd (h "max-age=1" "MAX-AGE=1" (by decide)) (by decide)

end Security
end BrowserHeadless
