/-
  BrowserHeadless.Capture.Cookies

  `parse_cookie_header` (src/capture.rs): the `Cookie` header a caller gives a capture,
  as name and value pairs.

  A pair the parser returns is well formed (`IsCookiePair`), and it reads any well-formed
  pairs back from the items they are written as (`parseCookieHeader_join`).
-/

import BrowserHeadless.Collect.Extract
import BrowserHeadless.Lib.Text

namespace BrowserHeadless
namespace Capture

open Collect (isWhitespace)
open Lib (trim splitOnce)

/-- One item of the header: the body of the `filter_map`. -/
def cookiePair (item : List Char) : Option (String × String) :=
  let pair := trim isWhitespace item
  if pair.isEmpty then none
  else
    (splitOnce '=' pair).map fun (name, value) =>
      (String.ofList (trim isWhitespace name), String.ofList (trim isWhitespace value))

/-- `parse_cookie_header`. -/
def parseCookieHeader (header : String) : List (String × String) :=
  (header.toList.splitOn ';').filterMap cookiePair

/-! ## Well-formed pairs -/

/-- The pairs a `Cookie` header can carry. -/
structure IsCookiePair (pair : String × String) : Prop where
  name_trimmed : trim isWhitespace pair.1.toList = pair.1.toList
  name_semicolon : ';' ∉ pair.1.toList
  name_equals : '=' ∉ pair.1.toList
  value_trimmed : trim isWhitespace pair.2.toList = pair.2.toList
  value_semicolon : ';' ∉ pair.2.toList

/-- What stands between two semicolons and has a name before its first equals sign is a
    well-formed pair. -/
theorem isCookiePair_of_cookiePair {item : List Char} {pair : String × String}
    (hsemi : ';' ∉ item) (h : cookiePair item = some pair) : IsCookiePair pair := by
  simp only [cookiePair] at h
  split at h
  next => exact absurd h (by simp)
  next =>
    obtain ⟨⟨name, value⟩, hsplit, rfl⟩ := Option.map_eq_some_iff.mp h
    obtain ⟨htrim, hname⟩ := Lib.splitOnce_eq_some_iff.mp hsplit
    have hno : ∀ part : List Char, (∀ c ∈ part, c ∈ name ++ '=' :: value) → ';' ∉ part := by
      intro part hpart hmem
      apply hsemi
      apply Lib.mem_of_mem_trim
      rw [htrim]
      exact hpart _ hmem
    exact
      { name_trimmed := by simp only [String.toList_ofList, Lib.trim_trim]
        name_semicolon := by
          rw [String.toList_ofList]
          exact hno _ fun c hc => List.mem_append_left _ (Lib.mem_of_mem_trim hc)
        name_equals := by
          rw [String.toList_ofList]
          exact fun hc => hname (Lib.mem_of_mem_trim hc)
        value_trimmed := by simp only [String.toList_ofList, Lib.trim_trim]
        value_semicolon := by
          rw [String.toList_ofList]
          exact hno _ fun c hc =>
            List.mem_append_right _ (List.mem_cons_of_mem _ (Lib.mem_of_mem_trim hc)) }

/-- Every pair that is parsed is well formed. -/
theorem isCookiePair_of_mem_parse {header : String} {pair : String × String}
    (h : pair ∈ parseCookieHeader header) : IsCookiePair pair := by
  obtain ⟨item, hitem, hpair⟩ := List.mem_filterMap.mp h
  exact isCookiePair_of_cookiePair (Lib.notMem_of_mem_splitOn hitem) hpair

/-! ## Writing pairs -/

/-- `item` is `name=value` with blanks around it. -/
def IsCookieItem (pair : String × String) (item : List Char) : Prop :=
  ∃ lead trail : List Char, lead.all isWhitespace = true ∧ trail.all isWhitespace = true ∧
    item = lead ++ (pair.1.toList ++ '=' :: pair.2.toList) ++ trail

/-- The header of some items. -/
def joinCookies (items : List (List Char)) : String := String.ofList ([';'].intercalate items)

/-- An item is read back as its pair. -/
theorem cookiePair_of_isCookieItem {pair : String × String} {item : List Char}
    (hpair : IsCookiePair pair) (h : IsCookieItem pair item) : cookiePair item = some pair := by
  obtain ⟨lead, trail, hlead, htrail, rfl⟩ := h
  have htrim : trim isWhitespace (lead ++ (pair.1.toList ++ '=' :: pair.2.toList) ++ trail) =
      pair.1.toList ++ '=' :: pair.2.toList := by
    rw [Lib.trim_append_right (List.all_eq_true.mp htrail),
      Lib.trim_append_left (List.all_eq_true.mp hlead)]
    exact Lib.trim_append_cons_of_trim (by decide) hpair.name_trimmed hpair.value_trimmed
  rw [cookiePair, htrim, if_neg (by simp), Lib.splitOnce_append_cons hpair.name_equals]
  show some (String.ofList (trim isWhitespace pair.1.toList),
    String.ofList (trim isWhitespace pair.2.toList)) = some pair
  rw [hpair.name_trimmed, hpair.value_trimmed, String.ofList_toList, String.ofList_toList]

/-- Blanks are no separators. -/
theorem semicolon_notMem_of_isCookieItem {pair : String × String} {item : List Char}
    (hpair : IsCookiePair pair) (h : IsCookieItem pair item) : ';' ∉ item := by
  obtain ⟨lead, trail, hlead, htrail, rfl⟩ := h
  have hblank : ∀ blanks : List Char, blanks.all isWhitespace = true → ';' ∉ blanks :=
    fun blanks hall hmem => absurd (List.all_eq_true.mp hall _ hmem) (by decide)
  simp only [List.mem_append, List.mem_cons, not_or]
  exact ⟨⟨hblank _ hlead, hpair.name_semicolon, by decide, hpair.value_semicolon⟩,
    hblank _ htrail⟩

/-- Reading the items of a header back, one after the other. -/
theorem parseCookieHeader_join {pairs : List (String × String)} {items : List (List Char)}
    (hpairs : ∀ pair ∈ pairs, IsCookiePair pair) (h : List.Forall₂ IsCookieItem pairs items) :
    parseCookieHeader (joinCookies items) = pairs := by
  have hread : items.filterMap cookiePair = pairs := by
    induction h with
    | nil => rfl
    | cons hitem _ ih =>
        rw [List.forall_mem_cons] at hpairs
        rw [List.filterMap_cons_some (cookiePair_of_isCookieItem hpairs.1 hitem), ih hpairs.2]
  have hsemi : ∀ item ∈ items, ';' ∉ item := by
    clear hread
    induction h with
    | nil => simp
    | cons hitem _ ih =>
        rw [List.forall_mem_cons] at hpairs ⊢
        exact ⟨semicolon_notMem_of_isCookieItem hpairs.1 hitem, ih hpairs.2⟩
  rw [parseCookieHeader, joinCookies, String.toList_ofList]
  by_cases hne : items = []
  · subst hne
    exact hread
  · rw [List.splitOn_intercalate ';' hsemi hne, hread]

/-- Well-formed pairs, written with any blanks around the items, are read back in order and
    with duplicates; so are the pairs of any header. -/
theorem parseCookieHeader_roundTrip :
    (∀ (pairs : List (String × String)) (items : List (List Char)),
      (∀ pair ∈ pairs, IsCookiePair pair) → List.Forall₂ IsCookieItem pairs items →
      parseCookieHeader (joinCookies items) = pairs) ∧
    ∀ (header : String) (items : List (List Char)),
      List.Forall₂ IsCookieItem (parseCookieHeader header) items →
      parseCookieHeader (joinCookies items) = parseCookieHeader header :=
  ⟨fun _ _ hpairs hitems => parseCookieHeader_join hpairs hitems,
    fun _ _ hitems => parseCookieHeader_join (fun _ hmem => isCookiePair_of_mem_parse hmem) hitems⟩

/-- An empty name and an empty value, and equals signs in a value. -/
theorem parseCookieHeader_roundTrip_example :
    parseCookieHeader " =\t; a==b= ;a=" = [("", ""), ("a", "=b="), ("a", "")] ∧
      parseCookieHeader "=;a==b=;a=" = parseCookieHeader "x; =;;a = =b=; a=" := by
  constructor
  · exact parseCookieHeader_roundTrip.1 [("", ""), ("a", "=b="), ("a", "")]
      [" =\t".toList, " a==b= ".toList, "a=".toList]
      (by
        simp only [List.forall_mem_cons, List.not_mem_nil, false_imp_iff, implies_true, and_true]
        exact ⟨⟨by decide, by decide, by decide, by decide, by decide⟩,
          ⟨by decide, by decide, by decide, by decide, by decide⟩,
          ⟨by decide, by decide, by decide, by decide, by decide⟩⟩)
      (.cons ⟨[' '], ['\t'], by decide, by decide, rfl⟩
        (.cons ⟨[' '], [' '], by decide, by decide, rfl⟩
          (.cons ⟨[], [], by decide, by decide, rfl⟩ .nil)))
  · exact parseCookieHeader_roundTrip.2 "x; =;;a = =b=; a="
      ["=".toList, "a==b=".toList, "a=".toList]
      (.cons ⟨[], [], by decide, by decide, rfl⟩
        (.cons ⟨[], [], by decide, by decide, rfl⟩
          (.cons ⟨[], [], by decide, by decide, rfl⟩ .nil)))

end Capture
end BrowserHeadless
