/-
  BrowserHeadless.Error

  The two error types of the crate: `browser::Error` (src/browser/mod.rs) and
  `CaptureError` (src/error.rs), and the map between them.
-/

import Mathlib.Data.List.Basic

namespace BrowserHeadless

/-- `browser::Error`. -/
inductive Error where
  | cdp (s : String)
  | notFound (s : String)
  | timeout (s : String)
  | upstreamFailure (status : Int) (url : String)
  | invalidInput (s : String)
deriving DecidableEq, Repr

/-- `Display for Error`. -/
def Error.toText : Error → String
  | cdp s => s
  | notFound s => "not found: " ++ s
  | timeout s => "timed out waiting for " ++ s
  | upstreamFailure status url =>
      "upstream request failed (status " ++ toString status ++ "): " ++ url
  | invalidInput s => "invalid input: " ++ s

/-- `CaptureErrorKind`. -/
inductive CaptureErrorKind where
  | badRequest
  | unauthorized
  | forbidden
  | notFound
  | timeout
  | gatewayTimeout
  | badGateway
  | serviceUnavailable
  | tooManyRequests
  | internal
deriving DecidableEq, Repr

/-- `CaptureError`. -/
structure CaptureError where
  kind : CaptureErrorKind
  message : String
deriving DecidableEq, Repr

/-- What one `capture_one` gives: an error, or a capture as `serde_json::to_value` converts
    it. -/
abbrev CaptureResult (β : Type) := Except CaptureError (Except String β)

/-- `CaptureError::status_u16`. -/
def CaptureError.statusU16 (e : CaptureError) : Nat :=
  match e.kind with
  | .badRequest => 400
  | .unauthorized => 401
  | .forbidden => 403
  | .notFound => 404
  | .timeout => 408
  | .tooManyRequests => 429
  | .gatewayTimeout => 504
  | .badGateway => 502
  | .serviceUnavailable => 503
  | .internal => 500

/-- `from_browser`. -/
def CaptureError.fromBrowser (e : Error) : CaptureError :=
  match e with
  | .notFound _ => ⟨.notFound, e.toText⟩
  | .timeout _ => ⟨.timeout, e.toText⟩
  | .upstreamFailure _ _ => ⟨.badGateway, e.toText⟩
  | .invalidInput _ => ⟨.badRequest, e.toText⟩
  | .cdp _ => ⟨.internal, e.toText⟩

/-- Every error is reported with a failing status. -/
theorem CaptureError.le_statusU16 (e : CaptureError) : 400 ≤ e.statusU16 := by
  unfold statusU16
  cases e.kind <;> decide

end BrowserHeadless
