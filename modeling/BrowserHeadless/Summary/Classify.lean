/-
  BrowserHeadless.Summary.Classify

  How src/browser/mod.rs classifies a resource for the resource summary: by MIME type, by
  status, by content coding, by the name in its URL and by its cache policy.
-/

import BrowserHeadless.Collect.Extract
import BrowserHeadless.Lib.Text
import Mathlib.Data.List.DropRight

namespace BrowserHeadless
namespace Summary

open Collect (startsWith urlContains trim isWhitespace ParsedUrl)

/-! ## MIME types -/

/-- `mime_bucket`. -/
def mimeBucket (mime : String) : String :=
  let m := asciiLower mime
  if startsWith m "image/" then "image"
  else if startsWith m "video/" || startsWith m "audio/" then "media"
  else if startsWith m "font/" || urlContains m "woff" || urlContains m "opentype" ||
      urlContains m "truetype" then "font"
  else if urlContains m "javascript" || urlContains m "ecmascript" then "javascript"
  else if urlContains m "css" then "css"
  else if urlContains m "html" then "html"
  else if urlContains m "xml" then "xml"
  else if urlContains m "json" then "json"
  else "other"

/-- `is_text_compressible`. -/
def isTextCompressible (mime : String) : Bool :=
  let m := asciiLower mime
  startsWith m "text/" || urlContains m "javascript" || urlContains m "ecmascript" ||
    urlContains m "json" || urlContains m "xml" || urlContains m "svg" || urlContains m "html"

/-- The legacy raster formats. -/
def isLegacyImage (mime : String) : Bool :=
  let m := asciiLower mime
  m == "image/jpeg" || m == "image/png" || m == "image/gif"

/-- The next-generation raster formats. -/
def isModernImage (mime : String) : Bool :=
  let m := asciiLower mime
  m == "image/webp" || m == "image/avif"

/-- `is_static_asset_bucket`. -/
def isStaticAssetBucket (bucket : String) : Bool :=
  bucket == "javascript" || bucket == "css" || bucket == "image" || bucket == "font"

/-- Image formats are in the image bucket. -/
theorem mimeBucket_of_legacy {mime : String} (h : isLegacyImage mime = true) :
    mimeBucket mime = "image" := by
  simp only [isLegacyImage, Bool.or_eq_true, beq_iff_eq] at h
  unfold mimeBucket
  obtain (h | h) | h := h <;>
  · rw [h]
    decide

theorem mimeBucket_of_modern {mime : String} (h : isModernImage mime = true) :
    mimeBucket mime = "image" := by
  simp only [isModernImage, Bool.or_eq_true, beq_iff_eq] at h
  unfold mimeBucket
  obtain h | h := h <;>
  · rw [h]
    decide

/-! ## Status and content coding -/

/-- The class of a status in `status_distribution`. -/
def statusBucket (status : Nat) : String :=
  if 100 ≤ status ∧ status ≤ 199 then "1xx"
  else if 200 ≤ status ∧ status ≤ 299 then "2xx"
  else if 300 ≤ status ∧ status ≤ 399 then "3xx"
  else if 400 ≤ status ∧ status ≤ 499 then "4xx"
  else if 500 ≤ status ∧ status ≤ 599 then "5xx"
  else "other"

/-- The first coding of a `Content-Encoding` header, `split(',').next()`, without blanks
    and in lower case. -/
def firstCoding (header : String) : String :=
  asciiLower (trim (String.ofList (header.toList.takeWhile (· != ','))))

/-- The key of `compression_breakdown` for a header. -/
def codingOf (contentEncoding : Option String) : String :=
  ((contentEncoding.map firstCoding).filter fun s => !s.isEmpty).getD "none"

/-! ## Names in URLs -/

/-- `url_basename`: the last segment of the path, without query and fragment. -/
def urlBasename (url : String) : Option String :=
  let path := (url.toList.takeWhile (· != '?')).takeWhile (· != '#')
  let name := path.rtakeWhile (· != '/')
  if name = [] ∨ ':' ∈ name then none else some (String.ofList name)

/-- A hexadecimal digit of `is_hashed_url_path`. -/
def isHex (c : Char) : Bool := c.isDigit || ('a' ≤ c && c ≤ 'f') || ('A' ≤ c && c ≤ 'F')

/-- The scan of `is_hashed_url_path`; `run` counts the hexadecimal digits right before.
    A byte of a character outside of ASCII is no such digit, nor is the character. -/
def hasHexRun (run : Nat) : List Char → Bool
  | [] => false
  | c :: cs => if isHex c then 8 ≤ run + 1 || hasHexRun (run + 1) cs else hasHexRun 0 cs

/-- `is_hashed_url_path`. -/
def isHashedUrlPath (parsed : ParsedUrl) : Bool := hasHexRun 0 parsed.path.toList

/-! ## `parse_max_age` -/

/-- `str::parse::<u64>`: digits, with a plus sign or not, of a value that fits. -/
def parseU64 (s : List Char) : Option Nat :=
  let digits := match s with
    | '+' :: ds => ds
    | ds => ds
  if digits = [] ∨ digits.any (fun c => !c.isDigit) then none
  else
    let n := digits.foldl (fun n c => 10 * n + (c.toNat - 48)) 0
    if n < 2 ^ 64 then some n else none

/-- The text without a plus sign before it. -/
def dropPlus : List Char → List Char
  | '+' :: ds => ds
  | ds => ds

/-- A digit string. -/
def isDigits (s : List Char) : Bool := !s.isEmpty && s.all Char.isDigit

/-- The value of a digit string. -/
def decimal (s : List Char) : Nat := s.foldl (fun n c => 10 * n + (c.toNat - 48)) 0

theorem parseU64_eq (s : List Char) :
    parseU64 s =
      if isDigits (dropPlus s) = true ∧ decimal (dropPlus s) < 2 ^ 64 then
        some (decimal (dropPlus s))
      else none := by
  show (if dropPlus s = [] ∨ (dropPlus s).any (fun c => !c.isDigit) = true then none
    else if decimal (dropPlus s) < 2 ^ 64 then some (decimal (dropPlus s)) else none) = _
  have hdigits : isDigits (dropPlus s) = true ↔
      ¬ (dropPlus s = [] ∨ (dropPlus s).any (fun c => !c.isDigit) = true) := by
    simp [isDigits]
  by_cases h : isDigits (dropPlus s) = true
  · rw [if_neg (hdigits.mp h)]
    simp only [h, true_and]
  · rw [if_pos (not_not.mp (mt hdigits.mpr h)), if_neg fun hand => h hand.1]

theorem isDigit_of_isAlpha {c : Char} (h : c.isAlpha = true) : c.isDigit = false := by
  have hrange := Lib.toNat_of_isAlpha h
  refine Bool.eq_false_iff.mpr fun hdigit => ?_
  have hle : c.toNat ≤ 57 := of_decide_eq_true ((Bool.and_eq_true _ _).mp hdigit).2
  omega

theorem dropPlus_toLower (s : List Char) :
    dropPlus (s.map Char.toLower) = (dropPlus s).map Char.toLower := by
  cases s with
  | nil => rfl
  | cons c s =>
      by_cases hc : c = '+'
      · rw [hc]
        rfl
      · have hlower : c.toLower ≠ '+' := mt (Lib.toLower_eq_iff (by decide) c).mp hc
        rw [List.map_cons, dropPlus, dropPlus, List.map_cons]
        · exact fun ds heq => hc (List.cons.inj heq).1
        · exact fun ds heq => hlower (List.cons.inj heq).1

theorem isDigits_toLower (s : List Char) : isDigits (s.map Char.toLower) = isDigits s := by
  have hdigit : Char.isDigit ∘ Char.toLower = Char.isDigit :=
    funext (Lib.apply_toLower fun c hc => isDigit_of_isAlpha hc)
  rw [isDigits, isDigits, List.isEmpty_map, List.all_map, hdigit]

/-- Digits have no case. -/
theorem toLower_of_isDigits {s : List Char} (h : isDigits s = true) :
    s.map Char.toLower = s := by
  conv_rhs => rw [← List.map_id s]
  refine List.map_congr_left fun c hc => ?_
  rcases Lib.toLower_cases c with ⟨halpha, -⟩ | heq
  · have hdigit := List.all_eq_true.mp ((Bool.and_eq_true _ _).mp h).2 c hc
    rw [isDigit_of_isAlpha halpha] at hdigit
    exact absurd hdigit (by decide)
  · exact heq

/-- A number is the same in every case. -/
theorem parseU64_toLower (s : List Char) : parseU64 (s.map Char.toLower) = parseU64 s := by
  rw [parseU64_eq, parseU64_eq, dropPlus_toLower, isDigits_toLower]
  by_cases h : isDigits (dropPlus s) = true
  · rw [toLower_of_isDigits h]
  · rw [if_neg fun hand => h hand.1, if_neg fun hand => h hand.1]

/-- Lower case keeps the blanks in place. -/
theorem trim_toLower (s : List Char) :
    Lib.trim isWhitespace (s.map Char.toLower) = (Lib.trim isWhitespace s).map Char.toLower :=
  Lib.trim_map (Lib.apply_toLower fun _ hc => Collect.isWhitespace_of_isAlpha hc) s

/-- `str::strip_prefix`. -/
def stripPrefix (s p : List Char) : Option (List Char) :=
  if p.isPrefixOf s then some (s.drop p.length) else none

theorem stripPrefix_append (p rest : List Char) : stripPrefix (p ++ rest) p = some rest := by
  rw [stripPrefix, if_pos (List.isPrefixOf_iff_prefix.mpr (List.prefix_append p rest)),
    List.drop_left]

theorem stripPrefix_eq_some_iff {s p rest : List Char} :
    stripPrefix s p = some rest ↔ s = p ++ rest := by
  constructor
  · intro h
    rw [stripPrefix] at h
    split at h
    next hpre =>
      obtain ⟨more, rfl⟩ := List.isPrefixOf_iff_prefix.mp hpre
      rw [List.drop_left] at h
      rw [Option.some.inj h]
    next => exact absurd h (by simp)
  · rintro rfl
    exact stripPrefix_append p rest

theorem stripPrefix_eq_none_iff {s p : List Char} : stripPrefix s p = none ↔ ¬ p <+: s := by
  rw [stripPrefix]
  split
  next hpre => simpa using List.isPrefixOf_iff_prefix.mp hpre
  next hpre => simpa using mt List.isPrefixOf_iff_prefix.mpr hpre

/-- The first `max-age` directive among the tokens; a malformed one ends the search. -/
def maxAgeOf : List (List Char) → Option Nat
  | [] => none
  | token :: tokens =>
      let lower := (asciiLower (trim (String.ofList token))).toList
      match stripPrefix lower "max-age".toList with
      | none => maxAgeOf tokens
      | some rest =>
          match stripPrefix (rest.dropWhile isWhitespace) "=".toList with
          | none => none
          | some value =>
              (parseU64 (value.dropWhile isWhitespace)).map fun v => min v (2 ^ 32 - 1)

/-- `parse_max_age`. -/
def parseMaxAge (cacheControl : String) : Option Nat :=
  maxAgeOf (cacheControl.toList.splitOn ',')

example : parseMaxAge "public, Max-Age = 30" = some 30 ∧ parseMaxAge "max-age: 5" = none := by
  decide

end Summary
end BrowserHeadless
