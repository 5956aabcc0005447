/-
  BrowserHeadless.Collect.Event

  The protocol events that the collect loops of src/browser/mod.rs consume, with
  the fields the loops read, and the operations of Rust's standard library that
  the loops use on them.

  CDP numbers are JSON numbers, so the floats of an event are finite; they are
  modelled by the rationals that they stand for, and what is computed from them is
  rounded after each operation.
-/

import BrowserHeadless.Cdp
import BrowserHeadless.Lib.Float
import Mathlib.Data.List.Infix
import Mathlib.Data.Rat.Floor
import Mathlib.Tactic.Positivity

namespace BrowserHeadless
namespace Collect

/-! ## Rounding -/

/-- The result of an operation on doubles, from the exact one.  What overflows is out of the
    range of the doubles, where the casts saturate as they do for an infinity. -/
def rounded (q : ℚ) : ℚ :=
  let magnitude : ℚ :=
    match (Lib.F64.ofRatio false q.num.natAbs q.den).value with
    | .finite _ units => units / 2 ^ 1074
    | _ => 2 ^ 1024
  if q < 0 then -magnitude else magnitude

/-- `f64::is_finite`, of the result of an operation. -/
def isFinite (q : ℚ) : Bool := -2 ^ 1024 < q && q < 2 ^ 1024

/-- Rounding keeps the sign. -/
theorem rounded_nonneg {q : ℚ} (h : 0 ≤ q) : 0 ≤ rounded q := by
  rw [rounded, if_neg (not_lt.mpr h)]
  split <;> positivity

theorem rounded_nonpos {q : ℚ} (h : q < 0) : rounded q ≤ 0 := by
  rw [rounded, if_pos h, neg_nonpos]
  split <;> positivity

@[simp] theorem rounded_zero : rounded 0 = 0 := by decide +kernel

/-! ## Casts and string tests -/

/-- `f64 as u32`: towards zero and saturating. -/
def asU32 (q : ℚ) : Nat := min q.floor.toNat (2 ^ 32 - 1)

/-- `f64 as u64`. -/
def asU64 (q : ℚ) : Nat := min q.floor.toNat (2 ^ 64 - 1)

/-- `f64 as i64`, of a value that is already integral. -/
def asI64 (q : ℚ) : Int := max (-2 ^ 63) (min q.floor (2 ^ 63 - 1))

/-- `i64 as u32`, which keeps the low 32 bits. -/
def statusAsU32 (status : Int) : Nat := (status % 2 ^ 32).toNat

/-- `str::starts_with`. -/
def startsWith (s p : String) : Bool := p.toList.isPrefixOf s.toList

/-- `str::contains`. -/
def urlContains (url p : String) : Bool := decide (p.toList <:+: url.toList)

/-- `eq_ignore_ascii_case`. -/
def eqIgnoreAsciiCase (a b : String) : Bool := asciiLower a == asciiLower b

/-- `Vec::swap_remove`: the last element takes the place of the removed one. -/
def swapRemove {α : Type} (l : List α) (i : Nat) : List α :=
  match l.getLast? with
  -- for the last index this drops the element itself
  | some x => (l.set i x).dropLast
  | none => []

/-- `is_real_resource`. -/
def isRealResource (url : String) : Bool :=
  !(startsWith url "data:" || startsWith url "blob:" || startsWith url "about:" ||
    startsWith url "chrome-extension:" || startsWith url "moz-extension:")

/-- A status below 400 is kept as it is by the cast to `u32`. -/
theorem statusAsU32_of_range {status : Int} (h0 : 0 ≤ status) (h1 : status < 2 ^ 32) :
    (statusAsU32 status : Int) = status := by
  unfold statusAsU32
  rw [Int.emod_eq_of_lt h0 h1]
  exact Int.toNat_of_nonneg h0

/-! ## Event payloads -/

/-- `Network.ResourceTiming`. -/
structure CdpResourceTiming where
  requestTime : ℚ := 0
  dnsStart : ℚ := -1
  dnsEnd : ℚ := -1
  connectStart : ℚ := -1
  connectEnd : ℚ := -1
  sslStart : ℚ := -1
  sslEnd : ℚ := -1
  sendStart : ℚ := 0
  sendEnd : ℚ := 0
  receiveHeadersEnd : ℚ := 0
deriving DecidableEq

/-- `Network.SecurityDetails`. -/
structure CdpSecurityDetails where
  protocol : String
  cipher : String
  keyExchange : String
  subjectName : String
  issuer : String
  validFrom : ℚ
  validTo : ℚ
  sanList : List String
deriving DecidableEq

/-- `Network.Headers`: a JSON value, which is an object or not; the values of
    an object that are strings are `some`. -/
abbrev Headers := Option (List (String × Option String))

/-- `Network.Response`. -/
structure Response where
  url : String
  status : Int := 200
  mimeType : String := ""
  headers : Headers := some []
  connectionReused : Bool := false
  fromDiskCache : Option Bool := none
  fromServiceWorker : Option Bool := none
  fromPrefetchCache : Option Bool := none
  protocol : Option String := none
  timing : Option CdpResourceTiming := none
  securityDetails : Option CdpSecurityDetails := none
  remoteIpAddress : Option String := none
  remotePort : Option Int := none
deriving DecidableEq

/-- `Network.responseReceived`. -/
structure EventResponseReceived where
  requestId : String
  type : ResourceType
  frameId : Option String := none
  response : Response
deriving DecidableEq

/-- `Page.lifecycleEvent`. -/
structure EventLifecycleEvent where
  name : String
  timestamp : ℚ
deriving DecidableEq

/-- `Network.loadingFinished`. -/
structure EventLoadingFinished where
  requestId : String
  encodedDataLength : ℚ
deriving DecidableEq

/-- `Network.Initiator`; `type` is the `Debug` text of its variant. -/
structure CdpInitiator where
  type : String
  url : Option String := none
  lineNumber : Option ℚ := none
deriving DecidableEq

/-- `Network.requestWillBeSent`. -/
structure EventRequestWillBeSent where
  requestId : String
  url : String
  timestamp : ℚ
  initiator : CdpInitiator
deriving DecidableEq

/-- `Network.loadingFailed`. -/
structure EventLoadingFailed where
  requestId : String
  timestamp : ℚ
  type : ResourceType
  errorText : String
  canceled : Option Bool := none
deriving DecidableEq

/-- `Runtime.RemoteObject` as far as it is printed; `value` is the text of the
    JSON value (the contents of a string), `type` the `Debug` text. -/
structure RemoteObject where
  type : String
  className : Option String := none
  description : Option String := none
  value : Option String := none
deriving DecidableEq

/-- `Runtime.exceptionThrown`. -/
structure EventExceptionThrown where
  text : String
  lineNumber : Int
  columnNumber : Int
  exception : Option RemoteObject := none
deriving DecidableEq

/-- `Runtime.consoleAPICalled`; `type` is the `Debug` text of its variant. -/
structure EventConsoleApiCalled where
  type : String
  args : List RemoteObject
deriving DecidableEq

/-- `CSS.styleSheetAdded`. -/
structure EventStyleSheetAdded where
  styleSheetId : String
  sourceUrl : String
  length : ℚ
deriving DecidableEq

/-! ## Deliveries -/

/-- `Instant`, in nanoseconds from some origin. -/
abbrev Instant := Nat

/-- An event with what the arm that consumes it reads besides: the instant and
    the wall clock (seconds since the Unix epoch). -/
structure Delivery (ε : Type) where
  now : Instant := 0
  wallSecs : Nat := 0
  ev : ε

end Collect
end BrowserHeadless
