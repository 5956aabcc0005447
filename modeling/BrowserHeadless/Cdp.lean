/-
  BrowserHeadless.Cdp

  The parts of the Chrome DevTools Protocol vocabulary that several modules of
  src/browser/mod.rs share.
-/

import Mathlib.Data.List.Basic

namespace BrowserHeadless

/-- `Network.ResourceType` of the protocol. -/
inductive ResourceType where
  | document
  | stylesheet
  | image
  | media
  | font
  | script
  | textTrack
  | xhr
  | fetch
  | prefetch
  | eventSource
  | webSocket
  | manifest
  | signedExchange
  | ping
  | cspViolationReport
  | preflight
  | other
deriving DecidableEq, Repr

/-- `str::to_ascii_lowercase`. -/
def asciiLower (s : String) : String := String.ofList (s.toList.map Char.toLower)

/-- `parse_resource_type`: the type a caller names in `block_resource_types`. -/
def parseResourceType (s : String) : Option ResourceType :=
  match asciiLower s with
  | "document" | "html" => some .document
  | "stylesheet" | "css" => some .stylesheet
  | "image" | "img" => some .image
  | "media" | "video" | "audio" => some .media
  | "font" => some .font
  | "script" | "js" | "javascript" => some .script
  | "xhr" => some .xhr
  | "fetch" => some .fetch
  | "websocket" | "ws" => some .webSocket
  | "manifest" => some .manifest
  | "ping" => some .ping
  | "other" => some .other
  | _ => none

end BrowserHeadless
