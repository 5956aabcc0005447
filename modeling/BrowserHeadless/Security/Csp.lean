/-
  BrowserHeadless.Security.Csp

  `parse_csp` (src/browser/security.rs): the weakness report on a
  `Content-Security-Policy` header.

  The report is determined by the names of the segments and by the pairs of a name and a
  source (`CspReport`), so it depends neither on the order in which the hash map is visited
  nor on how the sources are spread over the segments.
-/

import BrowserHeadless.Collect.Extract
import BrowserHeadless.Lib.Group
import BrowserHeadless.Lib.Text
import Mathlib.Data.List.Sort
import Mathlib.Data.Nat.Digits.Defs
import Mathlib.Data.String.Basic

namespace BrowserHeadless
namespace Security

open Collect (isWhitespace eqIgnoreAsciiCase)
open Lib (HashMap words upsertIf tally)

/-! ## Parsing -/

/-- `CspAnalysis`. -/
structure CspAnalysis where
  directiveCount : Nat := 0
  unsafeInline : Bool := false
  unsafeEval : Bool := false
  wildcardDirectives : List String := []
  missingObjectSrc : Bool := false
  missingBaseUri : Bool := false
  missingFrameAncestors : Bool := false
  weaknesses : List String := []
deriving DecidableEq, Repr

/-- The lower-case name and the sources of a segment, if it is not blank. -/
def segment (raw : List Char) : Option (String × List String) :=
  match (words isWhitespace raw).map String.ofList with
  | [] => none
  | name :: sources => some (asciiLower name, sources)

/-- One segment: the body of the `for`. -/
def addSegment (directives : HashMap String (List String)) (raw : List Char) :
    HashMap String (List String) :=
  match segment raw with
  | none => directives
  | some (name, sources) => directives.upsert name [] (· ++ sources)

/-- The segments of a policy. -/
def segments (value : String) : List (List Char) := value.toList.splitOn ';'

/-- The map `directives`. -/
def directiveMap (segs : List (List Char)) : HashMap String (List String) :=
  segs.foldl addSegment ∅

/-- `w.push(code)` under a condition. -/
def pushIf (c : Bool) (code : String) (w : List String) : List String :=
  if c then w ++ [code] else w

/-- The `weaknesses` of a report. -/
def weaknessesOf (a : CspAnalysis) : List String :=
  let w := pushIf a.unsafeInline "unsafe-inline" []
  let w := pushIf a.unsafeEval "unsafe-eval" w
  let w := pushIf (!a.wildcardDirectives.isEmpty) "wildcard-source" w
  let w := pushIf a.missingObjectSrc "missing-object-src" w
  let w := pushIf a.missingBaseUri "missing-base-uri" w
  pushIf a.missingFrameAncestors "missing-frame-ancestors" w

/-- `parse_csp`; `order` is the order in which the map is visited. -/
def parseCsp (order : HashMap.Order String (List String)) (value : String) :
    Option CspAnalysis :=
  let directives := directiveMap (segments value)
  let entries := order.entries directives
  if entries.isEmpty then none
  else
    let hasKw := fun kw => entries.any fun e => e.2.any fun src => eqIgnoreAsciiCase src kw
    let containsKey := fun name => (directives.lookup name).isSome
    let a : CspAnalysis :=
      { directiveCount := entries.length % 2 ^ 32
        unsafeInline := hasKw "'unsafe-inline'"
        unsafeEval := hasKw "'unsafe-eval'"
        wildcardDirectives :=
          ((entries.filter fun e => e.2.any (· == "*")).map (·.1)).insertionSort (· ≤ ·)
        missingObjectSrc := !containsKey "object-src" && !containsKey "default-src"
        missingBaseUri := !containsKey "base-uri"
        missingFrameAncestors := !containsKey "frame-ancestors" }
    some { a with weaknesses := weaknessesOf a }

/-! ## Names and sources -/

/-- The names of the segments. -/
def names (segs : List (List Char)) : List String := (segs.filterMap segment).map Prod.fst

/-- The pairs of a name and a source. -/
def sourcePairs (segs : List (List Char)) : List (String × String) :=
  (segs.filterMap segment).flatMap fun s => s.2.map fun source => (s.1, source)

theorem mem_names {segs : List (List Char)} {name : String} :
    name ∈ names segs ↔ ∃ raw ∈ segs, ∃ sources, segment raw = some (name, sources) := by
  simp only [names, List.mem_map, List.mem_filterMap, Prod.exists, exists_and_right,
    exists_eq_right]
  constructor
  · rintro ⟨sources, raw, hraw, heq⟩
    exact ⟨raw, hraw, sources, heq⟩
  · rintro ⟨raw, hraw, sources, heq⟩
    exact ⟨sources, raw, hraw, heq⟩

theorem mem_sourcePairs {segs : List (List Char)} {name source : String} :
    (name, source) ∈ sourcePairs segs ↔
      ∃ raw ∈ segs, ∃ sources, segment raw = some (name, sources) ∧ source ∈ sources := by
  simp only [sourcePairs, List.mem_flatMap, List.mem_filterMap, List.mem_map]
  constructor
  · rintro ⟨⟨name', sources⟩, ⟨raw, hraw, heq⟩, source', hsource, hpair⟩
    obtain ⟨rfl, rfl⟩ := Prod.mk.inj hpair
    exact ⟨raw, hraw, sources, heq, hsource⟩
  · rintro ⟨raw, hraw, sources, heq, hsource⟩
    exact ⟨(name, sources), ⟨raw, hraw, heq⟩, source, hsource, rfl⟩

/-! ## The map -/

/-- The loop groups the sources by name. -/
theorem directiveMap_eq_tally (segs : List (List Char)) :
    directiveMap segs = tally (fun raw => (segment raw).map Prod.fst) []
      (fun group raw => group ++ ((segment raw).map Prod.snd).getD []) ∅ segs := by
  rw [directiveMap, tally]
  congr 1
  funext m raw
  rw [addSegment]
  cases segment raw with
  | none => rfl
  | some s => rfl

/-- What is appended one after the other. -/
theorem mem_foldl_append {α β : Type*} {f : α → List β} {l : List α} {init : List β} {b : β} :
    b ∈ l.foldl (fun group a => group ++ f a) init ↔ b ∈ init ∨ ∃ a ∈ l, b ∈ f a := by
  induction l generalizing init with
  | nil => simp
  | cons a l ih => rw [List.foldl_cons, ih, List.mem_append, List.exists_mem_cons_iff, or_assoc]

theorem lookup_directiveMap_isSome {segs : List (List Char)} {name : String} :
    ((directiveMap segs).lookup name).isSome = true ↔ name ∈ names segs := by
  rw [directiveMap_eq_tally, Finmap.lookup_isSome, ← Finmap.mem_keys, Lib.mem_keys_tally, mem_names]
  simp only [Option.map_eq_some_iff, Prod.exists, exists_and_right, exists_eq_right]

theorem lookup_directiveMap_source {segs : List (List Char)} {name source : String} :
    (∃ sources, (directiveMap segs).lookup name = some sources ∧ source ∈ sources) ↔
      (name, source) ∈ sourcePairs segs := by
  rw [directiveMap_eq_tally, Lib.lookup_tally, mem_sourcePairs, Finmap.lookup_empty,
    Option.getD_none]
  have hmem : ∀ raw, (raw ∈ segs.filter fun raw => (segment raw).map Prod.fst = some name) ↔
      raw ∈ segs ∧ ∃ sources, segment raw = some (name, sources) := by
    intro raw
    simp only [List.mem_filter, decide_eq_true_eq, Option.map_eq_some_iff, Prod.exists,
      exists_and_right, exists_eq_right]
  constructor
  · rintro ⟨sources, hlookup, hsource⟩
    split at hlookup
    next => exact absurd hlookup (by simp)
    next =>
      obtain rfl := Option.some.inj hlookup
      rcases mem_foldl_append.mp hsource with hnil | ⟨raw, hraw, hin⟩
      · exact absurd hnil List.not_mem_nil
      · obtain ⟨hsegs, sources, heq⟩ := (hmem raw).mp hraw
        rw [heq] at hin
        exact ⟨raw, hsegs, sources, heq, hin⟩
  · rintro ⟨raw, hraw, sources, heq, hsource⟩
    have hin := (hmem raw).mpr ⟨hraw, sources, heq⟩
    rw [if_neg (List.ne_nil_of_mem hin)]
    refine ⟨_, rfl, mem_foldl_append.mpr (Or.inr ⟨raw, hin, ?_⟩)⟩
    rw [heq]
    exact hsource

/-! ## The report -/

/-- The findings of a report, each with its code. -/
def findings (a : CspAnalysis) : List (Bool × String) :=
  [ (a.unsafeInline, "unsafe-inline"),
    (a.unsafeEval, "unsafe-eval"),
    (decide (a.wildcardDirectives ≠ []), "wildcard-source"),
    (a.missingObjectSrc, "missing-object-src"),
    (a.missingBaseUri, "missing-base-uri"),
    (a.missingFrameAncestors, "missing-frame-ancestors") ]

/-- What the pairs `D` of a name and a source and the names `N` say of a policy. -/
structure CspReport (D : List (String × String)) (N : Finset String) (a : CspAnalysis) :
    Prop where
  directiveCount : a.directiveCount = N.card % 2 ^ 32
  unsafeInline : a.unsafeInline = true ↔
    ∃ p ∈ D, eqIgnoreAsciiCase p.2 "'unsafe-inline'" = true
  unsafeEval : a.unsafeEval = true ↔ ∃ p ∈ D, eqIgnoreAsciiCase p.2 "'unsafe-eval'" = true
  wildcard_sorted : a.wildcardDirectives.Pairwise (· < ·)
  mem_wildcard : ∀ name, name ∈ a.wildcardDirectives ↔ (name, "*") ∈ D
  missingObjectSrc : a.missingObjectSrc = true ↔ "object-src" ∉ N ∧ "default-src" ∉ N
  missingBaseUri : a.missingBaseUri = true ↔ "base-uri" ∉ N
  missingFrameAncestors : a.missingFrameAncestors = true ↔ "frame-ancestors" ∉ N
  weaknesses : a.weaknesses = ((findings a).filter Prod.fst).map Prod.snd

/-- Pushing under six conditions keeps the true findings. -/
theorem weaknessesOf_eq (a : CspAnalysis) :
    weaknessesOf a = ((findings a).filter Prod.fst).map Prod.snd := by
  have hpush : ∀ (c : Bool) (code : String) (fs : List (Bool × String)),
      pushIf c code ((fs.filter Prod.fst).map Prod.snd) =
        ((fs ++ [(c, code)]).filter Prod.fst).map Prod.snd := by
    intro c code fs
    rw [List.filter_append, List.map_append, pushIf]
    cases c with
    | false => simp
    | true => rw [if_pos rfl, List.filter_cons_of_pos rfl]; rfl
  have hempty : (!a.wildcardDirectives.isEmpty) = decide (a.wildcardDirectives ≠ []) := by
    cases a.wildcardDirectives <;> rfl
  have hfirst : pushIf a.unsafeInline "unsafe-inline" [] =
      (([] ++ [(a.unsafeInline, "unsafe-inline")]).filter Prod.fst).map Prod.snd := hpush _ _ []
  simp only [weaknessesOf]
  rw [hempty, hfirst, hpush, hpush, hpush, hpush, hpush]
  rfl

/-- The pairs and the names determine the report. -/
theorem CspReport.eq {D D' : List (String × String)} {N : Finset String} {a a' : CspAnalysis}
    (h : CspReport D N a) (h' : CspReport D' N a') (hD : ∀ p, p ∈ D' ↔ p ∈ D) : a' = a := by
  have hsome : ∀ kw : String, (∃ p ∈ D', eqIgnoreAsciiCase p.2 kw = true) ↔
      ∃ p ∈ D, eqIgnoreAsciiCase p.2 kw = true := by
    intro kw
    simp only [hD]
  have hinline : a'.unsafeInline = a.unsafeInline := by
    rw [Bool.eq_iff_iff, h.unsafeInline, h'.unsafeInline, hsome]
  have heval : a'.unsafeEval = a.unsafeEval := by
    rw [Bool.eq_iff_iff, h.unsafeEval, h'.unsafeEval, hsome]
  have hwildcard : a'.wildcardDirectives = a.wildcardDirectives := by
    have hperm : a'.wildcardDirectives.Perm a.wildcardDirectives := by
      refine (List.perm_ext_iff_of_nodup (h'.wildcard_sorted.imp fun hlt => hlt.ne)
        (h.wildcard_sorted.imp fun hlt => hlt.ne)).mpr fun name => ?_
      rw [h.mem_wildcard, h'.mem_wildcard, hD]
    exact hperm.eq_of_pairwise (fun x y _ _ hxy hyx => absurd hxy (lt_asymm hyx))
      h'.wildcard_sorted h.wildcard_sorted
  have hobject : a'.missingObjectSrc = a.missingObjectSrc := by
    rw [Bool.eq_iff_iff, h.missingObjectSrc, h'.missingObjectSrc]
  have hbase : a'.missingBaseUri = a.missingBaseUri := by
    rw [Bool.eq_iff_iff, h.missingBaseUri, h'.missingBaseUri]
  have hframe : a'.missingFrameAncestors = a.missingFrameAncestors := by
    rw [Bool.eq_iff_iff, h.missingFrameAncestors, h'.missingFrameAncestors]
  have hfindings : findings a' = findings a := by
    rw [findings, findings, hinline, heval, hwildcard, hobject, hbase, hframe]
  have hcodes : a'.weaknesses = a.weaknesses := by
    rw [h.weaknesses, h'.weaknesses, hfindings]
  have hcount : a'.directiveCount = a.directiveCount := by
    rw [h.directiveCount, h'.directiveCount]
  cases a
  cases a'
  simp_all only

/-- The keys of the map. -/
theorem toFinset_keys (order : HashMap.Order String (List String)) (segs : List (List Char)) :
    ((order.entries (directiveMap segs)).map Sigma.fst).toFinset = (names segs).toFinset := by
  ext name
  rw [List.mem_toFinset, List.mem_toFinset, ← lookup_directiveMap_isSome, List.mem_map,
    Option.isSome_iff_exists]
  constructor
  · rintro ⟨e, he, rfl⟩
    exact ⟨e.2, order.lookup_of_mem he⟩
  · rintro ⟨sources, hsources⟩
    exact ⟨⟨name, sources⟩, order.mem_entries.mpr hsources, rfl⟩

/-- Some entry of the map has a source with `q`. -/
theorem exists_source {order : HashMap.Order String (List String)} {segs : List (List Char)}
    {q : String → Bool} :
    ((order.entries (directiveMap segs)).any fun e => e.2.any q) = true ↔
      ∃ p ∈ sourcePairs segs, q p.2 = true := by
  simp only [List.any_eq_true]
  constructor
  · rintro ⟨e, he, source, hsource, hq⟩
    exact ⟨(e.1, source),
      lookup_directiveMap_source.mp ⟨e.2, order.lookup_of_mem he, hsource⟩, hq⟩
  · rintro ⟨⟨name, source⟩, hp, hq⟩
    obtain ⟨sources, hlookup, hsource⟩ := lookup_directiveMap_source.mpr hp
    exact ⟨⟨name, sources⟩, order.mem_entries.mpr hlookup, source, hsource, hq⟩

theorem parseCsp_eq_none_iff (order : HashMap.Order String (List String)) (value : String) :
    parseCsp order value = none ↔ (names (segments value)).toFinset = ∅ := by
  have hnone : parseCsp order value = none ↔
      (order.entries (directiveMap (segments value))).isEmpty = true := by
    simp only [parseCsp]
    split
    next hempty => exact iff_of_true rfl hempty
    next hempty => exact iff_of_false (by simp) hempty
  rw [hnone, ← toFinset_keys order, List.toFinset_eq_empty_iff, List.map_eq_nil_iff,
    List.isEmpty_iff]

/-- The report of the parser is the one on the names and sources. -/
theorem cspReport_of_parseCsp {order : HashMap.Order String (List String)} {value : String}
    {a : CspAnalysis} (h : parseCsp order value = some a) :
    CspReport (sourcePairs (segments value)) (names (segments value)).toFinset a := by
  have hkeys := toFinset_keys order (segments value)
  have hnodup : ((order.entries (directiveMap (segments value))).map Sigma.fst).Nodup :=
    order.nodupKeys _
  have hmissing : ∀ name : String,
      ((directiveMap (segments value)).lookup name).isSome = false ↔
        name ∉ (names (segments value)).toFinset := by
    intro name
    rw [List.mem_toFinset, ← lookup_directiveMap_isSome, Bool.not_eq_true]
  simp only [parseCsp] at h
  split at h
  next => exact absurd h (by simp)
  next =>
    obtain rfl := Option.some.inj h
    exact
      { directiveCount := by rw [← hkeys, List.toFinset_card_of_nodup hnodup, List.length_map]
        unsafeInline := exists_source
        unsafeEval := exists_source
        wildcard_sorted := by
          refine ((List.pairwise_insertionSort (· ≤ ·) _).and ?_).imp fun hle =>
            lt_of_le_of_ne hle.1 hle.2
          exact (List.perm_insertionSort _ _).nodup_iff.mpr
            (hnodup.sublist (List.filter_sublist.map _))
        mem_wildcard := by
          intro name
          rw [(List.perm_insertionSort _ _).mem_iff, ← lookup_directiveMap_source]
          simp only [List.mem_map, List.mem_filter, List.any_eq_true, beq_iff_eq]
          constructor
          · rintro ⟨e, ⟨he, source, hsource, rfl⟩, rfl⟩
            exact ⟨e.2, order.lookup_of_mem he, hsource⟩
          · rintro ⟨sources, hlookup, hsource⟩
            exact ⟨⟨name, sources⟩, ⟨order.mem_entries.mpr hlookup, "*", hsource, rfl⟩, rfl⟩
        missingObjectSrc := by
          rw [Bool.and_eq_true, Bool.not_eq_true', Bool.not_eq_true', hmissing, hmissing]
        missingBaseUri := by rw [Bool.not_eq_true', hmissing]
        missingFrameAncestors := by rw [Bool.not_eq_true', hmissing]
        weaknesses := weaknessesOf_eq _ }

/-- Policies with the same names and pairs have the same report, in any order of the map. -/
theorem parseCsp_congr {value value' : String}
    (hnames : ∀ name, name ∈ names (segments value') ↔ name ∈ names (segments value))
    (hpairs : ∀ p, p ∈ sourcePairs (segments value') ↔ p ∈ sourcePairs (segments value))
    (order order' : HashMap.Order String (List String)) :
    parseCsp order' value' = parseCsp order value := by
  have hN : (names (segments value')).toFinset = (names (segments value)).toFinset := by
    ext name
    rw [List.mem_toFinset, List.mem_toFinset, hnames]
  cases hvalue : parseCsp order value with
  | none =>
      rw [parseCsp_eq_none_iff, hN]
      exact (parseCsp_eq_none_iff order value).mp hvalue
  | some a =>
      cases hvalue' : parseCsp order' value' with
      | none =>
          rw [parseCsp_eq_none_iff, hN, ← parseCsp_eq_none_iff order, hvalue] at hvalue'
          exact absurd hvalue' (by simp)
      | some a' =>
          have hreport := cspReport_of_parseCsp hvalue'
          rw [hN] at hreport
          rw [(cspReport_of_parseCsp hvalue).eq hreport hpairs]

/-! ## Rearranged policies -/

/-- Segments in another order, a segment twice, a segment whose sources are spread over
    several segments of its name, and a blank segment. -/
inductive Rearranged : List (List Char) → List (List Char) → Prop
  | permute {segs segs' : List (List Char)} (h : segs.Perm segs') : Rearranged segs segs'
  | again {before behind : List (List Char)} {raw : List Char} (h : raw ∈ before ++ behind) :
      Rearranged (before ++ behind) (before ++ raw :: behind)
  | spread {before behind parts : List (List Char)} {raw : List Char} {name : String}
      {sources : List (List String)} (hne : parts ≠ [])
      (hraw : segment raw = some (name, sources.flatten))
      (hparts : List.Forall₂ (fun part s => segment part = some (name, s)) parts sources) :
      Rearranged (before ++ raw :: behind) (before ++ parts ++ behind)
  | blank {before behind : List (List Char)} {raw : List Char}
      (h : raw.all isWhitespace = true) :
      Rearranged (before ++ behind) (before ++ raw :: behind)

theorem names_append (segs segs' : List (List Char)) :
    names (segs ++ segs') = names segs ++ names segs' := by
  rw [names, List.filterMap_append, List.map_append, names, names]

theorem sourcePairs_append (segs segs' : List (List Char)) :
    sourcePairs (segs ++ segs') = sourcePairs segs ++ sourcePairs segs' := by
  rw [sourcePairs, List.filterMap_append, List.flatMap_append, sourcePairs, sourcePairs]

theorem segment_of_blank {raw : List Char} (h : raw.all isWhitespace = true) :
    segment raw = none := by
  rw [segment, Lib.words_of_all (List.all_eq_true.mp h)]
  rfl

/-- The parts of a segment have its name and its sources. -/
theorem mem_parts {parts : List (List Char)} {name : String} {sources : List (List String)}
    (h : List.Forall₂ (fun part s => segment part = some (name, s)) parts sources) :
    (∀ n, n ∈ names parts ↔ n = name ∧ parts ≠ []) ∧
      ∀ p, p ∈ sourcePairs parts ↔ p.1 = name ∧ p.2 ∈ sources.flatten := by
  induction h with
  | nil => simp [names, sourcePairs]
  | @cons part s parts sources hpart _ ih =>
      have hname : names (part :: parts) = name :: names parts := by
        rw [names, List.filterMap_cons_some hpart, List.map_cons, names]
      have hpairs : sourcePairs (part :: parts) =
          (s.map fun source => (name, source)) ++ sourcePairs parts := by
        rw [sourcePairs, List.filterMap_cons_some hpart, List.flatMap_cons, sourcePairs]
      constructor
      · intro n
        rw [hname, List.mem_cons, ih.1]
        simp only [ne_eq, reduceCtorEq, not_false_eq_true, and_true]
        exact ⟨fun hn => hn.elim id And.left, Or.inl⟩
      · rintro ⟨n, source⟩
        rw [hpairs, List.mem_append, ih.2, List.flatten_cons, List.mem_append, List.mem_map]
        simp only [Prod.mk.injEq]
        constructor
        · rintro (⟨source', hs, rfl, rfl⟩ | ⟨rfl, hs⟩)
          · exact ⟨rfl, Or.inl hs⟩
          · exact ⟨rfl, Or.inr hs⟩
        · rintro ⟨rfl, hs | hs⟩
          · exact Or.inl ⟨source, hs, rfl, rfl⟩
          · exact Or.inr ⟨rfl, hs⟩

/-- Names and pairs depend on which segments there are. -/
theorem same_of_mem {segs segs' : List (List Char)} (h : ∀ raw, raw ∈ segs' ↔ raw ∈ segs) :
    (∀ name, name ∈ names segs' ↔ name ∈ names segs) ∧
      ∀ p, p ∈ sourcePairs segs' ↔ p ∈ sourcePairs segs := by
  refine ⟨fun name => ?_, fun p => ?_⟩
  · rw [mem_names, mem_names]
    simp only [h]
  · rw [mem_sourcePairs, mem_sourcePairs]
    simp only [h]

/-- A rearranged policy has the same names and the same pairs. -/
theorem Rearranged.same {segs segs' : List (List Char)} (h : Rearranged segs segs') :
    (∀ name, name ∈ names segs' ↔ name ∈ names segs) ∧
      ∀ p, p ∈ sourcePairs segs' ↔ p ∈ sourcePairs segs := by
  cases h with
  | permute h => exact same_of_mem fun raw => h.mem_iff.symm
  | @again before behind raw h =>
      have hmem : ∀ r, r ∈ before ++ raw :: behind ↔ r ∈ before ++ behind := by
        intro r
        simp only [List.mem_append, List.mem_cons] at h ⊢
        constructor
        · rintro (hr | rfl | hr)
          · exact Or.inl hr
          · exact h
          · exact Or.inr hr
        · exact fun hr => hr.imp id Or.inr
      exact same_of_mem hmem
  | @spread before behind parts raw name sources hne hraw hparts =>
      obtain ⟨hnames, hpairs⟩ := mem_parts hparts
      obtain ⟨hname, hpair⟩ := mem_parts (List.Forall₂.cons hraw List.Forall₂.nil)
      have hcons : before ++ raw :: behind = before ++ [raw] ++ behind := by simp
      rw [hcons]
      refine ⟨fun n => ?_, fun p => ?_⟩
      · simp only [names_append, List.mem_append, hnames, hname, ne_eq, hne, not_false_eq_true,
          reduceCtorEq]
      · simp only [sourcePairs_append, List.mem_append, hpairs, hpair, List.flatten_cons,
          List.flatten_nil, List.append_nil]
  | @blank before behind raw h =>
      have hnone := segment_of_blank h
      refine ⟨fun name => ?_, fun p => ?_⟩
      · rw [names, List.filterMap_append, List.filterMap_cons_none hnone, ← List.filterMap_append,
          names]
      · rw [sourcePairs, List.filterMap_append, List.filterMap_cons_none hnone,
          ← List.filterMap_append, sourcePairs]

/-- The report on a policy, for every order in which the map is visited, and its invariance
    under rearranging the policy. -/
theorem parseCsp_spec :
    (∀ (order : HashMap.Order String (List String)) (value : String),
      (parseCsp order value = none ↔ (names (segments value)).toFinset = ∅) ∧
      ∀ a, parseCsp order value = some a →
        CspReport (sourcePairs (segments value)) (names (segments value)).toFinset a) ∧
    ∀ (order order' : HashMap.Order String (List String)) (value value' : String),
      Rearranged (segments value) (segments value') →
      parseCsp order' value' = parseCsp order value :=
  ⟨fun order value => ⟨parseCsp_eq_none_iff order value, fun _ h => cspReport_of_parseCsp h⟩,
    fun order order' _ _ h => parseCsp_congr h.same.1 h.same.2 order order'⟩

/-- Two segments of one name, in different case. -/
theorem parseCsp_spec_example :
    (∃ a, parseCsp HashMap.Order.arbitrary "script-src 'self' *" = some a ∧
      CspReport (sourcePairs (segments "script-src 'self' *"))
        (names (segments "script-src 'self' *")).toFinset a) ∧
    parseCsp HashMap.Order.arbitrary "script-src 'self';SCRIPT-SRC *" =
      parseCsp HashMap.Order.arbitrary "script-src 'self' *" := by
  constructor
  · cases h : parseCsp HashMap.Order.arbitrary "script-src 'self' *" with
    | none =>
        exact absurd ((parseCsp_spec.1 HashMap.Order.arbitrary _).1.mp h) (by decide +kernel)
    | some a => exact ⟨a, rfl, (parseCsp_spec.1 HashMap.Order.arbitrary _).2 a h⟩
  · refine parseCsp_spec.2 HashMap.Order.arbitrary HashMap.Order.arbitrary _ _ ?_
    show Rearranged ([] ++ "script-src 'self' *".toList :: [])
      ([] ++ ["script-src 'self'".toList, "SCRIPT-SRC *".toList] ++ [])
    exact @Rearranged.spread [] [] _ _ "script-src" [["'self'"], ["*"]]
      (by simp) (by decide +kernel)
      (.cons (by decide +kernel) (.cons (by decide +kernel) .nil))

/-! ## Too many directives -/

/-- A name for a number: its binary digits. -/
def binaryName (i : Nat) : List Char :=
  'd' :: (Nat.digits 2 i).map fun d => if d = 0 then 'a' else 'b'

/-- A policy of `n` directives without sources. -/
def manyNames (n : Nat) : String :=
  String.ofList ([';'].intercalate ((List.range n).map binaryName))

theorem mem_binaryName {i : Nat} {c : Char} (h : c ∈ binaryName i) :
    c = 'd' ∨ c = 'a' ∨ c = 'b' := by
  rcases List.mem_cons.mp h with rfl | h
  · exact Or.inl rfl
  · obtain ⟨d, -, rfl⟩ := List.mem_map.mp h
    split
    · exact Or.inr (Or.inl rfl)
    · exact Or.inr (Or.inr rfl)

theorem binaryName_injective : Function.Injective binaryName := by
  -- the digits can be read back
  have hread : ∀ i, ((binaryName i).tail.map fun c => if c = 'a' then 0 else 1) =
      Nat.digits 2 i := by
    intro i
    rw [binaryName, List.tail_cons, List.map_map]
    conv_rhs => rw [← List.map_id (Nat.digits 2 i)]
    refine List.map_congr_left fun d hd => ?_
    have hlt : d < 2 := Nat.digits_lt_base (by decide) hd
    have hbit : d = 0 ∨ d = 1 := by omega
    rcases hbit with rfl | rfl <;> rfl
  intro i j hij
  apply Nat.digits.injective 2
  rw [← hread i, ← hread j, hij]

theorem segment_binaryName (i : Nat) :
    segment (binaryName i) = some (String.ofList (binaryName i), []) := by
  have hblank : ∀ c ∈ binaryName i, isWhitespace c = false := by
    intro c hc
    rcases mem_binaryName hc with rfl | rfl | rfl <;> rfl
  have hlower : (binaryName i).map Char.toLower = binaryName i := by
    conv_rhs => rw [← List.map_id (binaryName i)]
    refine List.map_congr_left fun c hc => ?_
    rcases mem_binaryName hc with rfl | rfl | rfl <;> rfl
  have hne : binaryName i ≠ [] := List.cons_ne_nil _ _
  rw [segment, Lib.words_of_none hne hblank]
  show some (asciiLower (String.ofList (binaryName i)), []) = _
  rw [asciiLower, String.toList_ofList, hlower]

theorem card_names_manyNames {n : Nat} (hn : 0 < n) :
    (names (segments (manyNames n))).toFinset.card = n := by
  have hsegments : segments (manyNames n) = (List.range n).map binaryName := by
    rw [segments, manyNames, String.toList_ofList, List.splitOn_intercalate ';']
    · intro name hname hmem
      obtain ⟨i, -, rfl⟩ := List.mem_map.mp hname
      rcases mem_binaryName hmem with h | h | h <;> exact absurd h (by decide)
    · rw [ne_eq, List.map_eq_nil_iff, List.range_eq_nil]
      omega
  have hnames : names (segments (manyNames n)) =
      (List.range n).map fun i => String.ofList (binaryName i) := by
    rw [hsegments, names, List.filterMap_map, List.map_filterMap]
    rw [← List.filterMap_eq_map]
    congr 1
    funext i
    rw [Function.comp_apply, segment_binaryName]
    rfl
  rw [hnames, List.toFinset_card_of_nodup, List.length_map, List.length_range]
  refine List.Nodup.map (fun i j hij => ?_) List.nodup_range
  exact binaryName_injective (String.ofList_injective hij)

/-- A policy of `n` directives and its report. -/
theorem exists_report_manyNames (order : HashMap.Order String (List String)) {n : Nat}
    (hn : 0 < n) : ∃ a, parseCsp order (manyNames n) = some a ∧ a.directiveCount = n % 2 ^ 32 := by
  cases h : parseCsp order (manyNames n) with
  | none =>
      have hempty := (parseCsp_eq_none_iff order _).mp h
      have hcard := card_names_manyNames hn
      rw [hempty, Finset.card_empty] at hcard
      omega
  | some a =>
      refine ⟨a, rfl, ?_⟩
      rw [(cspReport_of_parseCsp h).directiveCount, card_names_manyNames hn]

/-- The count of directives is a `u32`: 2^32 of them count as none. -/
theorem parseCsp_count_wraps :
    ¬ ∀ (order : HashMap.Order String (List String)) (value : String) (a : CspAnalysis),
      parseCsp order value = some a →
      a.directiveCount = (names (segments value)).toFinset.card := by
  intro h
  have hn : 0 < 2 ^ 32 := by decide
  obtain ⟨a, ha, hcount⟩ := exists_report_manyNames HashMap.Order.arbitrary hn
  have hcard := h HashMap.Order.arbitrary _ a ha
  rw [hcount, card_names_manyNames hn, Nat.mod_self] at hcard
  exact absurd hcard (by decide)

end Security
end BrowserHeadless
