/-
  BrowserHeadless.Ssrf.Check

  The host test of the SSRF guard (src/ssrf.rs): `check_url` on a parsed URL and
  `raw_url_blocked` on the text of a request URL.

  The URL parser and the resolver are parameters.  A resolver answers one check;
  another check of the same host may get another answer.
-/

import BrowserHeadless.Ssrf.Address

namespace BrowserHeadless
namespace Ssrf

/-- `url::Host`. -/
inductive Host where
  | domain (name : String)
  | ipv4 (ip : Ipv4Addr)
  | ipv6 (ip : Ipv6Addr)
deriving DecidableEq, Repr

/-- `url::Url` as far as the guard reads it. -/
structure Url where
  scheme : String
  host : Option Host
  /-- What `Url::port_or_known_default` gives. -/
  portOrKnownDefault : Option Nat
deriving DecidableEq, Repr

/-- `Url::parse`, with the text of its error. -/
abbrev UrlParser := String → Except String Url

/-- `tokio::net::lookup_host` on `host:port`. -/
abbrev Resolver := String → Except String (List IpAddr)

/-- `SsrfError`. -/
inductive SsrfError where
  | noHost
  | dnsFailed (message : String)
  | blocked (message : String)
deriving DecidableEq, Repr

/-- `Display for SsrfError`. -/
def SsrfError.toText : SsrfError → String
  | noHost => "URL has no host"
  | dnsFailed m | blocked m => m

/-- `check_url` of a host. -/
def checkHost (dns : Resolver) (port : Nat) : Host → Except SsrfError Unit
  | .ipv4 ip =>
      if isBlockedIpv4 ip then .error (.blocked ("blocked IPv4 host: " ++ ip.toText)) else .ok ()
  | .ipv6 ip =>
      if isBlockedIpv6 ip then .error (.blocked ("blocked IPv6 host: " ++ ip.toText)) else .ok ()
  | .domain name =>
      match dns (name ++ ":" ++ toString port) with
      | .error e => .error (.dnsFailed ("dns resolution failed for `" ++ name ++ "`: " ++ e))
      | .ok addrs =>
          match addrs.find? isBlockedIp with
          | some ip =>
              .error (.blocked ("`" ++ name ++ "` resolves to blocked IP " ++ ip.toText))
          | none => .ok ()

/-- `check_url`. -/
def checkUrl (dns : Resolver) (url : Url) : Except SsrfError Unit :=
  match url.host with
  | none => .error .noHost
  | some host => checkHost dns (url.portOrKnownDefault.getD 80) host

/-- `http` or `https`. -/
def Url.isHttp (url : Url) : Bool := url.scheme = "http" || url.scheme = "https"

/-- `raw_url_blocked`: the reason to block a request for the URL `raw`. -/
def rawUrlBlocked (parse : UrlParser) (dns : Resolver) (raw : String) : Option String :=
  match parse raw with
  | .error _ => none
  | .ok url =>
      if url.isHttp then
        match checkUrl dns url with
        | .ok () => none
        | .error e => some e.toText
      else none

/-! ## What passes -/

/-- The host is an IP literal outside the blocked networks, or it resolves and no
    address it resolves to is in one. -/
inductive HostPasses (dns : Resolver) (url : Url) : Prop where
  | ipv4 (ip : Ipv4Addr) (host : url.host = some (.ipv4 ip)) (outside : ¬ ip.Blocked)
  | ipv6 (ip : Ipv6Addr) (host : url.host = some (.ipv6 ip)) (outside : ¬ ip.Blocked)
  | domain (name : String) (addrs : List IpAddr) (host : url.host = some (.domain name))
      (resolved : dns (name ++ ":" ++ toString (url.portOrKnownDefault.getD 80)) = .ok addrs)
      (outside : ∀ ip ∈ addrs, ¬ ip.Blocked)

/-- `check_url` allows exactly the URLs whose host passes. -/
theorem checkUrl_eq_ok_iff (dns : Resolver) (url : Url) :
    checkUrl dns url = .ok () ↔ HostPasses dns url := by
  rw [checkUrl]
  constructor
  · intro h
    split at h
    · cases h
    next host hhost =>
      cases host with
      | ipv4 ip =>
          rw [checkHost] at h
          split at h
          · cases h
          next hout => exact .ipv4 ip hhost fun hb => hout ((isBlockedIpv4_iff ip).mpr hb)
      | ipv6 ip =>
          rw [checkHost] at h
          split at h
          · cases h
          next hout => exact .ipv6 ip hhost fun hb => hout ((isBlockedIpv6_iff ip).mpr hb)
      | domain name =>
          rw [checkHost] at h
          split at h
          · cases h
          next addrs hdns =>
            split at h
            · cases h
            next hnone =>
              refine .domain name addrs hhost hdns fun ip hip => ?_
              rw [← isBlockedIp_iff]
              exact List.find?_eq_none.mp hnone ip hip
  · rintro (⟨ip, hhost, hout⟩ | ⟨ip, hhost, hout⟩ | ⟨name, addrs, hhost, hdns, hout⟩)
    · rw [hhost]
      exact if_neg fun hb => hout ((isBlockedIpv4_iff ip).mp hb)
    · rw [hhost]
      exact if_neg fun hb => hout ((isBlockedIpv6_iff ip).mp hb)
    · have hnone : addrs.find? isBlockedIp = none := by
        rw [List.find?_eq_none]
        intro ip hip hb
        exact hout ip hip ((isBlockedIp_iff ip).mp hb)
      simp only [hhost, checkHost, hdns, hnone]

/-- A request URL is let through if it does not parse, is not `http(s)`, or its
    host passes. -/
theorem rawUrlBlocked_eq_none_iff (parse : UrlParser) (dns : Resolver) (raw : String) :
    rawUrlBlocked parse dns raw = none ↔
      ∀ url, parse raw = .ok url → url.isHttp = true → HostPasses dns url := by
  rw [rawUrlBlocked]
  cases hparse : parse raw with
  | error e => simp
  | ok url =>
      dsimp only
      constructor
      · rintro h url' heq hhttp
        cases heq
        rw [if_pos hhttp] at h
        rw [← checkUrl_eq_ok_iff]
        split at h
        next hok => exact hok
        next => cases h
      · intro h
        split
        next hhttp =>
          rw [(checkUrl_eq_ok_iff dns url).mpr (h url rfl hhttp)]
        next => rfl

end Ssrf
end BrowserHeadless
