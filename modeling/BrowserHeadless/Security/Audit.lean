/-
  BrowserHeadless.Security.Audit

  The two derives of src/browser/security.rs on a finished collection: `build_security_audit`,
  the scorecard of headers and cookies, and `build_cors_issues`, the findings on responses
  that allow credentials for every origin.

  The CORS loop stops at its cap.  What it reports, it reports once, and it leaves nothing out
  below the cap (`buildCorsIssues_complete`).
-/

import BrowserHeadless.Collect.FullLoop
import BrowserHeadless.Security.Csp
import BrowserHeadless.Security.Hsts

namespace BrowserHeadless
namespace Security

open Collect (WebPageResource eqIgnoreAsciiCase trim)
open Lib (HashMap)

/-! ## `build_security_audit` -/

/-- `Cookie`, as `map_cookie` fills it. -/
structure Cookie where
  name : String
  value : String
  domain : String := ""
  path : String := ""
  expires : ℚ := -1
  httpOnly : Bool := false
  secure : Bool := false
  sameSite : Option String := none
deriving DecidableEq

/-- `SecurityHeadersCheck`. -/
structure SecurityHeadersCheck where
  hsts : Bool := false
  csp : Bool := false
  cspReportOnly : Bool := false
  xFrameOptions : Bool := false
  xContentTypeOptions : Bool := false
  referrerPolicy : Bool := false
  permissionsPolicy : Bool := false
  coop : Bool := false
  coep : Bool := false
  presentCount : Nat := 0
  missing : List String := []
  cspAnalysis : Option CspAnalysis := none
  hstsAnalysis : Option HstsAnalysis := none
deriving DecidableEq, Repr

/-- `CookieSecurityCheck`. -/
structure CookieSecurityCheck where
  total : Nat := 0
  secure : Nat := 0
  httpOnly : Nat := 0
  sameSiteSet : Nat := 0
  sameSiteNoneWithoutSecure : Nat := 0
  headerBytes : Nat := 0
deriving DecidableEq, Repr

/-- `SecurityAudit`. -/
structure SecurityAudit where
  headers : SecurityHeadersCheck := {}
  cookies : CookieSecurityCheck := {}
deriving DecidableEq, Repr

/-- `CORE_SECURITY_HEADERS`. -/
def coreSecurityHeaders : List String :=
  ["Strict-Transport-Security", "Content-Security-Policy", "X-Frame-Options",
    "X-Content-Type-Options", "Referrer-Policy", "Permissions-Policy",
    "Cross-Origin-Opener-Policy"]

/-- The closure `get`. -/
def getHeader (headers : Option (List (String × String))) (name : String) : Option String :=
  headers.bind fun m => m.lookup name

/-- The closure `has`. -/
def hasHeader (headers : Option (List (String × String))) (name : String) : Bool :=
  (getHeader headers name).isSome

/-- The core headers that did not come. -/
def missingHeaders (headers : Option (List (String × String))) : List String :=
  coreSecurityHeaders.filter fun name => !hasHeader headers name

/-- The header part of the audit; `order` is the order in which the directives of the policy
    are visited. -/
def checkHeaders (order : HashMap.Order String (List String))
    (headers : Option (List (String × String))) : SecurityHeadersCheck where
  hsts := hasHeader headers "Strict-Transport-Security"
  csp := hasHeader headers "Content-Security-Policy"
  cspReportOnly := hasHeader headers "Content-Security-Policy-Report-Only"
  xFrameOptions := hasHeader headers "X-Frame-Options"
  xContentTypeOptions := hasHeader headers "X-Content-Type-Options"
  referrerPolicy := hasHeader headers "Referrer-Policy"
  permissionsPolicy := hasHeader headers "Permissions-Policy"
  coop := hasHeader headers "Cross-Origin-Opener-Policy"
  coep := hasHeader headers "Cross-Origin-Embedder-Policy"
  cspAnalysis := (getHeader headers "Content-Security-Policy").bind (parseCsp order)
  hstsAnalysis := (getHeader headers "Strict-Transport-Security").map parseHsts
  missing := missingHeaders headers
  presentCount := coreSecurityHeaders.length - (missingHeaders headers).length

/-- The body of the loop over the cookies; the counters are `u32`, the bytes `u64`. -/
def noteCookie (c : CookieSecurityCheck) (cookie : Cookie) : CookieSecurityCheck :=
  let add (cond : Bool) (n : Nat) : Nat := if cond then (n + 1) % 2 ^ 32 else n
  { c with
    secure := add cookie.secure c.secure
    httpOnly := add cookie.httpOnly c.httpOnly
    sameSiteSet := add cookie.sameSite.isSome c.sameSiteSet
    sameSiteNoneWithoutSecure :=
      add ((cookie.sameSite.any fun ss => eqIgnoreAsciiCase ss "None") && !cookie.secure)
        c.sameSiteNoneWithoutSecure
    -- `name=value; `
    headerBytes :=
      (c.headerBytes + cookie.name.utf8ByteSize + 1 + cookie.value.utf8ByteSize + 2) % 2 ^ 64 }

/-- The cookie part of the audit. -/
def checkCookies (cookies : List Cookie) : CookieSecurityCheck :=
  let c := cookies.foldl noteCookie { total := cookies.length % 2 ^ 32 }
  -- without the separator behind the last cookie
  { c with headerBytes := if 2 ≤ c.headerBytes then c.headerBytes - 2 else c.headerBytes }

/-- `build_security_audit`. -/
def buildSecurityAudit (order : HashMap.Order String (List String))
    (headers : Option (List (String × String))) (cookies : List Cookie) : SecurityAudit where
  headers := checkHeaders order headers
  cookies := checkCookies cookies

/-- The audit splits the core headers into those that came and those that are missing. -/
theorem checkHeaders_count (order : HashMap.Order String (List String))
    (headers : Option (List (String × String))) :
    (checkHeaders order headers).presentCount =
      coreSecurityHeaders.countP fun name => hasHeader headers name := by
  have hsplit := coreSecurityHeaders.length_eq_countP_add_countP fun name => hasHeader headers name
  show coreSecurityHeaders.length - (missingHeaders headers).length = _
  rw [missingHeaders, ← List.countP_eq_length_filter]
  simp only [Bool.not_eq_true, Bool.decide_eq_false] at hsplit
  omega

/-! ## `build_cors_issues` -/

/-- `CorsIssue`. -/
structure CorsIssue where
  url : String
  allowOrigin : String
  allowCredentials : Bool
  reason : String
deriving DecidableEq, Repr

/-- The finding on one response: credentials for any origin, or for `null`. -/
def corsIssue (r : WebPageResource) : Option CorsIssue :=
  if !r.corsAllowCredentials then none
  else
    match r.corsAllowOrigin with
    | none => none
    | some acao =>
        if trim acao ≠ "*" ∧ !eqIgnoreAsciiCase (trim acao) "null" then none
        else
          some
            { url := r.url
              allowOrigin := trim acao
              allowCredentials := true
              reason := "wildcard-with-credentials" }

/-- The cap on the findings. -/
def corsCap : Nat := 20

/-- The loop over the resources, with the URLs it has `seen` and what it has pushed. -/
def corsLoop (seen : Finset String) (out : List CorsIssue) : List WebPageResource → List CorsIssue
  | [] => out
  | r :: rs =>
      match corsIssue r with
      | none => corsLoop seen out rs
      | some issue =>
          if r.url ∈ seen then corsLoop seen out rs
          else if corsCap ≤ (out ++ [issue]).length then out ++ [issue]
          else corsLoop (insert r.url seen) (out ++ [issue]) rs

/-- `build_cors_issues`. -/
def buildCorsIssues (resources : List WebPageResource) : List CorsIssue := corsLoop ∅ [] resources

theorem corsIssue_url {r : WebPageResource} {issue : CorsIssue} (h : corsIssue r = some issue) :
    issue.url = r.url := by
  unfold corsIssue at h
  split at h
  · cases h
  · split at h
    · cases h
    · split at h
      · cases h
      · cases h
        rfl

/-- Credentials are reported for `*` and, in any letter case, for `null`. -/
theorem corsIssue_eq_some_iff {r : WebPageResource} {issue : CorsIssue} :
    corsIssue r = some issue ↔
      r.corsAllowCredentials = true ∧ ∃ acao, r.corsAllowOrigin = some acao ∧
        (trim acao = "*" ∨ eqIgnoreAsciiCase (trim acao) "null" = true) ∧
        issue = ⟨r.url, trim acao, true, "wildcard-with-credentials"⟩ := by
  rw [corsIssue]
  cases r.corsAllowCredentials with
  | false => simp
  | true =>
      rw [if_neg (by decide)]
      cases r.corsAllowOrigin with
      | none => simp
      | some acao =>
          dsimp only
          by_cases hopen : trim acao = "*" ∨ eqIgnoreAsciiCase (trim acao) "null" = true
          · rw [if_neg (by simpa [imp_iff_not_or] using hopen), Option.some.injEq]
            constructor
            · rintro rfl
              exact ⟨rfl, acao, rfl, hopen, rfl⟩
            · rintro ⟨-, _, ⟨rfl⟩, -, rfl⟩
              rfl
          · rw [if_pos (by simpa [not_or] using hopen)]
            refine iff_of_false nofun ?_
            rintro ⟨-, _, ⟨rfl⟩, hopen', -⟩
            exact hopen hopen'

/-- What holds at the top of the loop. -/
structure CorsInv (seen : Finset String) (out : List CorsIssue) : Prop where
  urls : ∀ url, url ∈ seen ↔ url ∈ out.map CorsIssue.url
  nodup : (out.map CorsIssue.url).Nodup
  below : out.length < corsCap

theorem CorsInv.init : CorsInv ∅ [] where
  urls := by simp
  nodup := List.nodup_nil
  below := by decide

/-- A finding on a new URL. -/
theorem CorsInv.nodup_push {seen : Finset String} {out : List CorsIssue} {r : WebPageResource}
    {issue : CorsIssue} (h : CorsInv seen out) (hissue : corsIssue r = some issue)
    (hnew : r.url ∉ seen) : ((out ++ [issue]).map CorsIssue.url).Nodup := by
  rw [List.map_append, List.map_cons, List.map_nil, corsIssue_url hissue, List.nodup_append]
  refine ⟨h.nodup, List.nodup_singleton _, ?_⟩
  rintro url hurl _ hr rfl
  rw [List.mem_singleton] at hr
  exact hnew ((h.urls r.url).mpr (hr ▸ hurl))

theorem CorsInv.push {seen : Finset String} {out : List CorsIssue} {r : WebPageResource}
    {issue : CorsIssue} (h : CorsInv seen out) (hissue : corsIssue r = some issue)
    (hnew : r.url ∉ seen) (hroom : ¬ corsCap ≤ (out ++ [issue]).length) :
    CorsInv (insert r.url seen) (out ++ [issue]) where
  urls := by
    intro url
    rw [Finset.mem_insert, h.urls, List.map_append, List.mem_append, List.map_cons, List.map_nil,
      List.mem_singleton, corsIssue_url hissue]
    exact or_comm
  nodup := h.nodup_push hissue hnew
  below := Nat.lt_of_not_le hroom

/-- The result of the loop: what it had pushed stays, every finding is on one of the
    resources, no URL comes twice, and a finding that is not there was cut off by the cap. -/
structure CorsSpec (out : List CorsIssue) (resources : List WebPageResource)
    (result : List CorsIssue) : Prop where
  kept : ∀ issue ∈ out, issue ∈ result
  sound : ∀ issue ∈ result, issue ∈ out ∨ ∃ r ∈ resources, corsIssue r = some issue
  nodup : (result.map CorsIssue.url).Nodup
  length_le : result.length ≤ corsCap
  complete : ∀ r ∈ resources, ∀ issue, corsIssue r = some issue →
    r.url ∈ result.map CorsIssue.url ∨ result.length = corsCap

/-- A resource that adds nothing. -/
theorem CorsSpec.skip {out result : List CorsIssue} {r : WebPageResource}
    {rs : List WebPageResource} (h : CorsSpec out rs result)
    (hr : ∀ issue, corsIssue r = some issue → r.url ∈ out.map CorsIssue.url) :
    CorsSpec out (r :: rs) result where
  kept := h.kept
  sound := by
    intro issue hmem
    exact (h.sound issue hmem).imp_right fun ⟨r', hr', hissue⟩ =>
      ⟨r', List.mem_cons_of_mem r hr', hissue⟩
  nodup := h.nodup
  length_le := h.length_le
  complete := by
    intro r' hr' issue hissue
    rcases List.mem_cons.mp hr' with rfl | hmem
    · obtain ⟨known, hknown, hurl⟩ := List.mem_map.mp (hr issue hissue)
      exact Or.inl (List.mem_map.mpr ⟨known, h.kept known hknown, hurl⟩)
    · exact h.complete r' hmem issue hissue

/-- The finding that fills the list ends the loop. -/
theorem CorsSpec.full {out : List CorsIssue} {r : WebPageResource} {rs : List WebPageResource}
    {issue : CorsIssue} (hissue : corsIssue r = some issue)
    (hnodup : ((out ++ [issue]).map CorsIssue.url).Nodup)
    (hlen : (out ++ [issue]).length = corsCap) : CorsSpec out (r :: rs) (out ++ [issue]) where
  kept := fun _ hmem => List.mem_append_left _ hmem
  sound := by
    intro other hmem
    rcases List.mem_append.mp hmem with hmem | hmem
    · exact Or.inl hmem
    · rw [List.mem_singleton.mp hmem]
      exact Or.inr ⟨r, List.mem_cons_self, hissue⟩
  nodup := hnodup
  length_le := hlen.le
  complete := fun _ _ _ _ => Or.inr hlen

/-- A finding that is pushed, and the rest of the loop. -/
theorem CorsSpec.pushed {out result : List CorsIssue} {r : WebPageResource}
    {rs : List WebPageResource} {issue : CorsIssue} (hissue : corsIssue r = some issue)
    (h : CorsSpec (out ++ [issue]) rs result) : CorsSpec out (r :: rs) result where
  kept := fun other hmem => h.kept other (List.mem_append_left _ hmem)
  sound := by
    intro other hmem
    rcases h.sound other hmem with hmem | ⟨r', hr', hother⟩
    · rcases List.mem_append.mp hmem with hmem | hmem
      · exact Or.inl hmem
      · rw [List.mem_singleton.mp hmem]
        exact Or.inr ⟨r, List.mem_cons_self, hissue⟩
    · exact Or.inr ⟨r', List.mem_cons_of_mem r hr', hother⟩
  nodup := h.nodup
  length_le := h.length_le
  complete := by
    intro r' hr' other hother
    rcases List.mem_cons.mp hr' with rfl | hmem
    · have hhead : issue ∈ result := h.kept issue (List.mem_append_right out List.mem_cons_self)
      exact Or.inl (List.mem_map.mpr ⟨issue, hhead, corsIssue_url hissue⟩)
    · exact h.complete r' hmem other hother

theorem corsLoop_spec {seen : Finset String} {out : List CorsIssue} (h : CorsInv seen out)
    (resources : List WebPageResource) :
    CorsSpec out resources (corsLoop seen out resources) := by
  induction resources generalizing seen out with
  | nil =>
      exact ⟨fun _ hmem => hmem, fun _ hmem => Or.inl hmem, h.nodup, h.below.le, fun r hr => by
        cases hr⟩
  | cons r rs ih =>
      rw [corsLoop]
      cases hissue : corsIssue r with
      | none => exact (ih h).skip fun issue hsome => by cases hissue.symm.trans hsome
      | some issue =>
          dsimp only
          split
          next hseen => exact (ih h).skip fun _ _ => (h.urls r.url).mp hseen
          next hnew =>
            split
            next hfull =>
                have hbelow := h.below
                apply CorsSpec.full hissue (h.nodup_push hissue hnew)
                rw [List.length_append, List.length_singleton] at hfull ⊢
                omega
            next hroom => exact (ih (h.push hissue hnew hroom)).pushed hissue

/-- `build_cors_issues` reports findings on the resources, each URL once and at most 20, and
    leaves one out only at the cap. -/
theorem buildCorsIssues_complete (resources : List WebPageResource) :
    CorsSpec [] resources (buildCorsIssues resources) :=
  corsLoop_spec CorsInv.init resources

end Security
end BrowserHeadless
