/-
  BrowserHeadless.Capture.Rollups

  The rollups of a full report that `collect_summary` (src/browser/mod.rs) collects in hash
  maps while events come in: `js_exceptions`, with a counter for each class of errors, and
  `tls_certificates`, with the first certificate of each host.

  `exceptionTable` and `certificateTable` say what they are for, over lists and without a
  map: the loop refines them, whatever the events, the time it ends at and the iteration
  order of the maps (`rollups_capture`).
-/

import BrowserHeadless.Capture.One
import BrowserHeadless.Collect.Subframe
import BrowserHeadless.Lib.Group
import BrowserHeadless.Lib.Ranked

namespace BrowserHeadless
namespace Collect
namespace FullLoop

open Lib (HashMap)

/-! ## What an event adds -/

/-- The exception of an event. -/
def exceptionOf (d : Delivery Event) : Option EventExceptionThrown :=
  match d.ev with
  | .exceptionThrown ev => some ev
  | _ => none

/-- The certificate of an event, with the host it is for. -/
def certificateOf (c : CollectCaptures) (parseUrl : String → Option ParsedUrl) :
    Delivery Event → Option TlsInfo :=
  responseWrite fun wallSecs ev =>
    responseTls wallSecs ev (fillEntry c parseUrl ev { requestId := ev.requestId })

/-- The loop's entry of a class after one more exception. -/
def noteException (entry : Nat × Option String) (ev : EventExceptionThrown) :
    Nat × Option String :=
  ((entry.1 + 1) % 2 ^ 32, entry.2.or (exceptionSampleMessage ev))

/-- The variables behind the rollups. -/
structure Rollups where
  exceptions : List String
  exceptionBuckets : HashMap String (Nat × Option String)
  tlsByHost : HashMap String TlsInfo

/-- The variables behind the rollups, in a state of the loop. -/
def State.rollups (s : State) : Rollups := ⟨s.exceptions, s.exceptionBuckets, s.tlsByHost⟩

/-- One more exception. -/
def Rollups.addException (r : Rollups) (ev : EventExceptionThrown) : Rollups :=
  { r with
    exceptions := r.exceptions ++ [formatException ev]
    exceptionBuckets :=
      HashMap.upsert r.exceptionBuckets (classifyException ev) (0, none) fun entry =>
        noteException entry ev }

/-- One more certificate. -/
def Rollups.addCertificate (r : Rollups) (info : TlsInfo) : Rollups :=
  { r with tlsByHost := HashMap.upsert r.tlsByHost info.host info fun known => known }

/-- What an event adds to the rollups. -/
def Rollups.note (c : CollectCaptures) (parseUrl : String → Option ParsedUrl) (r : Rollups)
    (d : Delivery Event) : Rollups :=
  let r := (exceptionOf d).elim r r.addException
  (certificateOf c parseUrl d).elim r r.addCertificate

variable {c : CollectCaptures} {parseUrl : String → Option ParsedUrl} {url : String}
  {waitForRequest : List String} {ds : List (Delivery Event)} {t : State}

theorem rollups_recordResponse (wallSecs : Nat) (ev : EventResponseReceived) (s : State) :
    (recordResponse c parseUrl wallSecs ev s).rollups =
      (responseTls wallSecs ev (fillEntry c parseUrl ev { requestId := ev.requestId })).elim
        s.rollups s.rollups.addCertificate := by
  simp only [recordResponse, State.rollups]
  have htls : ∀ entry, responseTls wallSecs ev (fillEntry c parseUrl ev entry) =
      responseTls wallSecs ev (fillEntry c parseUrl ev { requestId := ev.requestId }) :=
    fun _ => rfl
  rw [htls]
  cases responseTls wallSecs ev (fillEntry c parseUrl ev { requestId := ev.requestId }) <;> rfl

/-- A turn of the loop adds what its event adds. -/
theorem rollups_step {s s' : State} {d : Delivery Event} (h : step c parseUrl s d = .ok s') :
    s'.rollups = s.rollups.note c parseUrl d := by
  cases step_cases h with
  | recorded ev hev hreal pending hmatch =>
      rw [rollups_recordResponse]
      simp only [Rollups.note, exceptionOf, certificateOf, responseWrite, hev, hreal, if_true,
        Option.elim_none]
      rfl
  | skipped ev hev hreal =>
      simp [Rollups.note, exceptionOf, certificateOf, responseWrite, hev, hreal]
  | exception ev hev =>
      simp only [Rollups.note, exceptionOf, certificateOf, responseWrite, hev, Option.elim_none,
        Option.elim_some]
      rfl
  | request ev hev hc =>
      simp only [Rollups.note, exceptionOf, certificateOf, responseWrite, hev, Option.elim_none,
        onRequest]
      split <;> rfl
  | failed ev hev hc =>
      simp only [Rollups.note, exceptionOf, certificateOf, responseWrite, hev, Option.elim_none,
        onFailed]
      split
      · rfl
      · split <;> rfl
  | lifecycle ev hev =>
      simp only [Rollups.note, exceptionOf, certificateOf, responseWrite, hev, Option.elim_none,
        onLifecycle]
      split <;> rfl
  | ignored hsub =>
      have hnone : exceptionOf d = none ∧ certificateOf c parseUrl d = none := by
        unfold exceptionOf certificateOf responseWrite
        cases hev : d.ev with
        | exceptionThrown ev =>
            rw [hev] at hsub
            cases hsub
        | responseReceived ev =>
            rw [hev] at hsub
            cases hsub
        | _ => exact ⟨rfl, rfl⟩
      rw [Rollups.note, hnone.1, hnone.2]
      rfl
  | finished ev hev =>
      simp only [Rollups.note, exceptionOf, certificateOf, responseWrite, hev, Option.elim_none]
      rfl
  | console ev hev =>
      simp only [Rollups.note, exceptionOf, certificateOf, responseWrite, hev, Option.elim_none]
      rfl
  | styleSheet ev hev =>
      simp only [Rollups.note, exceptionOf, certificateOf, responseWrite, hev, Option.elim_none]
      rfl

/-! ## What a run adds -/

/-- The exceptions of a sequence of events. -/
def exceptionsOf (ds : List (Delivery Event)) : List EventExceptionThrown :=
  ds.filterMap exceptionOf

/-- The certificates of a sequence of events, one for each response that shows one. -/
def certificatesOf (c : CollectCaptures) (parseUrl : String → Option ParsedUrl)
    (ds : List (Delivery Event)) : List TlsInfo :=
  ds.filterMap (certificateOf c parseUrl)

theorem foldl_note (ds : List (Delivery Event)) (r : Rollups) :
    ds.foldl (Rollups.note c parseUrl) r =
      { exceptions := r.exceptions ++ (exceptionsOf ds).map formatException
        exceptionBuckets := Lib.tally (fun ev => some (classifyException ev)) (0, none)
          noteException r.exceptionBuckets (exceptionsOf ds)
        tlsByHost := (certificatesOf c parseUrl ds).foldl
          (fun m info => m.upsert info.host info fun known => known) r.tlsByHost } := by
  induction ds generalizing r with
  | nil => simp [exceptionsOf, certificatesOf]
  | cons d ds ih =>
      rw [List.foldl_cons, ih]
      -- an event adds to one of the rollups at most
      simp only [Rollups.note, exceptionsOf, certificatesOf, List.filterMap_cons]
      cases hex : exceptionOf d with
      | none => cases certificateOf c parseUrl d <;> rfl
      | some ev =>
          have happend : (r.exceptions ++ [formatException ev]) ++
              (ds.filterMap exceptionOf).map formatException =
              r.exceptions ++ (ev :: ds.filterMap exceptionOf).map formatException := by simp
          cases certificateOf c parseUrl d with
          | none =>
              simp only [Option.elim_some, Option.elim_none, Rollups.addException, happend]
              rfl
          | some info =>
              simp only [Option.elim_some, Rollups.addException, Rollups.addCertificate, happend]
              rfl

/-- The rollups after a run. -/
theorem rollups_run (h : run c parseUrl url waitForRequest ds = .ok t) :
    t.rollups =
      { exceptions := (exceptionsOf ds).map formatException
        exceptionBuckets := Lib.tally (fun ev => some (classifyException ev)) (0, none)
          noteException ∅ (exceptionsOf ds)
        tlsByHost := (certificatesOf c parseUrl ds).foldl
          (fun m info => m.upsert info.host info fun known => known) ∅ } :=
  (Lib.consume_view State.rollups (Rollups.note c parseUrl) (fun _ _ _ => rollups_step) h).trans
    (foldl_note ds _)

/-- The exceptions of a class: how many there are, and what the first one with a message
    says. -/
theorem foldl_noteException (evs : List EventExceptionThrown) {n : Nat} (hn : n < 2 ^ 32)
    (sample : Option String) :
    evs.foldl noteException (n, sample) =
      ((n + evs.length) % 2 ^ 32, sample.or (evs.findSome? exceptionSampleMessage)) := by
  induction evs generalizing n sample with
  | nil =>
      rw [List.foldl_nil, List.length_nil, Nat.add_zero, Nat.mod_eq_of_lt hn]
      exact Prod.ext rfl (Option.or_none).symm
  | cons ev evs ih =>
      rw [List.foldl_cons, noteException, ih (Nat.mod_lt _ (by decide))]
      refine Prod.ext ?_ ?_
      · show ((n + 1) % 2 ^ 32 + evs.length) % 2 ^ 32 = (n + (evs.length + 1)) % 2 ^ 32
        omega
      · rw [List.findSome?_cons, Option.or_assoc]
        cases exceptionSampleMessage ev <;> rfl

end FullLoop
end Collect

namespace Capture

open Collect
open Collect.FullLoop (exceptionsOf certificatesOf)
open Lib (HashMap)

/-! ## The tables -/

/-- The row of a class of errors. -/
def classRow (evs : List EventExceptionThrown) (name : String) : JsExceptionCount :=
  let own := evs.filter fun ev => classifyException ev = name
  { name := name
    count := own.length % 2 ^ 32
    sampleMessage := own.findSome? exceptionSampleMessage }

/-- The most frequent classes of errors, among those that occur. -/
def exceptionTable (evs : List EventExceptionThrown) : JsExceptions where
  total := evs.length % 2 ^ 32
  byName :=
    (Lib.ranked JsExceptionCount.name JsExceptionCount.count
      ((evs.map classifyException).dedup.map (classRow evs))).take 10

/-- The first certificate of each host, soonest to expire first. -/
def certificateTable (certificates : List TlsInfo) : List TlsInfo :=
  ((certificates.map TlsInfo.host).dedup.filterMap fun host =>
    certificates.find? fun info => info.host = host).insertionSort expiresFirst

theorem lookup_exceptionBuckets (evs : List EventExceptionThrown) (name : String) :
    (Lib.tally (fun ev => some (classifyException ev)) (0, none) FullLoop.noteException ∅
      evs).lookup name =
      if name ∈ (evs.map classifyException).dedup then
        some ((classRow evs name).count, (classRow evs name).sampleMessage)
      else none := by
  rw [Lib.lookup_tally, Finmap.lookup_empty, Option.getD_none]
  simp only [Option.some.injEq]
  by_cases hmem : name ∈ (evs.map classifyException).dedup
  · have hsome : (evs.filter fun ev => classifyException ev = name) ≠ [] := by
      obtain ⟨ev, hev, rfl⟩ := List.mem_map.mp (List.mem_dedup.mp hmem)
      exact List.ne_nil_of_mem (List.mem_filter.mpr ⟨hev, decide_eq_true rfl⟩)
    rw [if_neg hsome, if_pos hmem, FullLoop.foldl_noteException _ (by decide), Nat.zero_add]
    rfl
  · have hnone : (evs.filter fun ev => classifyException ev = name) = [] := by
      refine List.filter_eq_nil_iff.mpr fun ev hev hname => hmem ?_
      exact List.mem_dedup.mpr (List.mem_map.mpr ⟨ev, hev, of_decide_eq_true hname⟩)
    rw [if_pos hnone, if_neg hmem]

/-- The loop's buckets are the table of its exceptions. -/
theorem buildJsExceptions_eq_table (order : HashMap.Order String (Nat × Option String))
    {s : FullLoop.State} {evs : List EventExceptionThrown}
    (hlist : s.exceptions = evs.map formatException)
    (hbuckets : s.exceptionBuckets = Lib.tally (fun ev => some (classifyException ev)) (0, none)
      FullLoop.noteException ∅ evs) :
    buildJsExceptions order s = exceptionTable evs := by
  have hlookup : ∀ name, s.exceptionBuckets.lookup name =
      if name ∈ (evs.map classifyException).dedup then
        some ((classRow evs name).count, (classRow evs name).sampleMessage)
      else none := by
    rw [hbuckets]
    exact lookup_exceptionBuckets evs
  have hperm := order.entries_perm (evs.map classifyException).nodup_dedup
    (fun name entry hentry => by
      rw [hlookup] at hentry
      by_contra hmem
      rw [if_neg hmem] at hentry
      cases hentry)
  have hrows := hperm.map fun e : (Σ _ : String, Nat × Option String) =>
    ({ name := e.1, count := e.2.1, sampleMessage := e.2.2 } : JsExceptionCount)
  have hread : ∀ name ∈ (evs.map classifyException).dedup,
      ((s.exceptionBuckets.lookup name).map fun v => (⟨name, v⟩ : Σ _ : String, _)).map
        (fun e => ({ name := e.1, count := e.2.1, sampleMessage := e.2.2 } : JsExceptionCount)) =
      some (classRow evs name) := by
    intro name hname
    rw [hlookup, if_pos hname]
    rfl
  rw [List.map_filterMap, List.filterMap_congr hread, List.filterMap_eq_map'] at hrows
  have hnamed : Lib.Named JsExceptionCount.name
      ((evs.map classifyException).dedup.map (classRow evs)) := by
    rw [Lib.Named, List.map_map]
    exact (List.map_id _).symm ▸ (evs.map classifyException).nodup_dedup
  have hranked := Lib.ranked_perm JsExceptionCount.count hnamed hrows.symm
  have htotal : s.exceptions.length = evs.length := by rw [hlist, List.length_map]
  rw [exceptionTable, hranked, ← htotal]
  rfl

theorem expiresFirst_total (a b : TlsInfo) : expiresFirst a b ∨ expiresFirst b a := by
  unfold expiresFirst
  rcases lt_trichotomy a.daysRemaining b.daysRemaining with h | h | h
  · exact .inl (.inl h)
  · rcases le_total a.host b.host with hle | hle
    · exact .inl (.inr ⟨h, hle⟩)
    · exact .inr (.inr ⟨h.symm, hle⟩)
  · exact .inr (.inl h)

theorem expiresFirst_trans {a b c : TlsInfo} (hab : expiresFirst a b) (hbc : expiresFirst b c) :
    expiresFirst a c := by
  unfold expiresFirst at *
  rcases hab with hab | ⟨hab, hhost⟩
  · rcases hbc with hbc | ⟨hbc, -⟩ <;> exact .inl (by omega)
  · rcases hbc with hbc | ⟨hbc, hhost'⟩
    · exact .inl (by omega)
    · exact .inr ⟨by omega, hhost.trans hhost'⟩

/-- Certificates that rank equally are for one host. -/
theorem host_eq_of_expiresFirst {a b : TlsInfo} (hab : expiresFirst a b)
    (hba : expiresFirst b a) : a.host = b.host := by
  unfold expiresFirst at *
  rcases hab with hab | ⟨hab, hhost⟩
  · rcases hba with hba | ⟨hba, -⟩ <;> omega
  · rcases hba with hba | ⟨-, hhost'⟩
    · omega
    · exact le_antisymm hhost hhost'

instance : Std.Total expiresFirst := ⟨expiresFirst_total⟩

instance : IsTrans TlsInfo expiresFirst := ⟨fun _ _ _ => expiresFirst_trans⟩

/-- The certificates of the loop, in any order of its map. -/
theorem perm_tlsByHost (order : HashMap.Order String TlsInfo) {m : HashMap String TlsInfo}
    {certificates : List TlsInfo}
    (hm : m = certificates.foldl (fun m info => m.upsert info.host info fun known => known) ∅) :
    ((order.entries m).map Sigma.snd).Perm
      ((certificates.map TlsInfo.host).dedup.filterMap fun host =>
        certificates.find? fun info => info.host = host) := by
  have hlookup : ∀ host, m.lookup host = certificates.find? fun info => info.host = host :=
    fun host => by rw [hm, Lib.lookup_foldl_first]
  have hperm := order.entries_perm (certificates.map TlsInfo.host).nodup_dedup
    (fun host info hinfo => by
      rw [hlookup] at hinfo
      have hhost := List.find?_some hinfo
      rw [List.mem_dedup, ← of_decide_eq_true hhost]
      exact List.mem_map_of_mem (List.mem_of_find?_eq_some hinfo))
  have hvalues := hperm.map Sigma.snd
  rw [List.map_filterMap] at hvalues
  simp only [Option.map_map, hlookup] at hvalues
  exact hvalues.trans (List.Perm.of_eq (List.filterMap_congr fun _ _ => Option.map_id_apply))

theorem tlsCertificates_eq_table (order : HashMap.Order String TlsInfo) {s : FullLoop.State}
    {certificates : List TlsInfo}
    (hm : s.tlsByHost =
      certificates.foldl (fun m info => m.upsert info.host info fun known => known) ∅) :
    tlsCertificates order s = certificateTable certificates := by
  refine Lib.insertionSort_eq_of_perm (fun a ha b hb hab hba => ?_) (perm_tlsByHost order hm)
  -- two values of the map that rank equally are under the same key
  have hkey : ∀ info ∈ (order.entries s.tlsByHost).map Sigma.snd,
      certificates.find? (fun other => other.host = info.host) = some info := by
    intro info hinfo
    rw [(perm_tlsByHost order hm).mem_iff] at hinfo
    obtain ⟨host, -, hfind⟩ := List.mem_filterMap.mp hinfo
    have hhost := List.find?_some hfind
    rw [of_decide_eq_true hhost]
    exact hfind
  have hfind := hkey b hb
  rw [← host_eq_of_expiresFirst hab hba, hkey a ha] at hfind
  exact Option.some.inj hfind

/-! ## The report -/

variable {V : Type}

/-- What a report says about exceptions and certificates. -/
structure RollupFields where
  exceptions : List String
  jsExceptions : JsExceptions
  tlsCertificates : List TlsInfo

/-- Its fields. -/
def WebPageStat.rollups (stat : WebPageStat V) : RollupFields :=
  ⟨stat.exceptions, stat.jsExceptions, stat.tlsCertificates⟩

/-- The later stages leave these fields alone. -/
theorem rollups_derive (parseUrl : String → Option ParsedUrl) (req : ReportRequest)
    (reads : Reads V req.toSummaryRequest) (stat : WebPageStat V) :
    (stat.derive parseUrl req reads).rollups = stat.rollups := by
  unfold WebPageStat.derive WebPageStat.dropResources WebPageStat.addHints WebPageStat.addHar
    WebPageStat.addImages WebPageStat.addScan
  cases reads.securityScan.value <;> cases reads.imageSizing.value <;> cases req.har <;>
    cases reads.resourceHints.value <;> cases req.resources <;> rfl

/-- The rollups of a full collection are the tables of the events that its loop took, and
    what it did not take came after its end. -/
theorem rollups_collectSummary {orders : MapOrders} {lower : String → String}
    {parseUrl : String → Option ParsedUrl} {page : Page V} {url : String} {timeout : Instant}
    {waitForRequest : List String} {waitUntilLoad : Bool} {c : CollectCaptures}
    {stat : WebPageStat V} (hlean : c.lean = false)
    (h : collectSummary orders lower parseUrl page url timeout waitForRequest waitUntilLoad c =
      .ok stat) :
    ∃ s taken post exit,
      FullLoop.collect c.toCollectCaptures parseUrl url waitForRequest waitUntilLoad timeout
        page.timerWins page.timeline = .ok (s, exit) ∧
      FullLoop.run c.toCollectCaptures parseUrl url waitForRequest taken = .ok s ∧
      page.timeline.deliveries.filter (fun d => c.subscribed d.ev) = taken ++ post ∧
      (∀ d ∈ post, exit ≤ d.now) ∧
      stat.rollups =
        { exceptions := (exceptionsOf taken).map formatException
          jsExceptions := exceptionTable (exceptionsOf taken)
          tlsCertificates :=
            certificateTable (certificatesOf c.toCollectCaptures parseUrl taken) } := by
  unfold collectSummary at h
  rw [hlean] at h
  obtain ⟨-, -, h⟩ := Lib.bind_eq_ok.mp h
  obtain ⟨⟨s, exit⟩, hcollect, h⟩ := Lib.bind_eq_ok.mp h
  obtain ⟨cookies, -, h⟩ := Lib.bind_eq_ok.mp h
  obtain ⟨screenshot, -, h⟩ := Lib.bind_eq_ok.mp h
  obtain ⟨coverage, -, h⟩ := Lib.bind_eq_ok.mp h
  obtain ⟨taken, post, hsplit, hrun, hpost⟩ := FullLoop.run_of_collect hcollect
  obtain ⟨hexceptions, hbuckets, htls⟩ :=
    FullLoop.Rollups.mk.inj (FullLoop.rollups_run hrun)
  refine ⟨s, taken, post, exit, hcollect, hrun, hsplit, hpost, ?_⟩
  rw [← Except.ok.inj h, ← buildJsExceptions_eq_table orders.exceptions hexceptions hbuckets,
    ← tlsCertificates_eq_table orders.certificates htls, ← hexceptions]
  rfl

/-- The rollups of a full report are the tables of the events that its loop took.  What it did
    not take came when it had ended. -/
theorem rollups_capture {orders : MapOrders} {lower : String → String}
    {parseUrl : String → Option ParsedUrl} {page : Page V} {req : ReportRequest}
    {stat : WebPageStat V} (hlean : req.contentOnly = false)
    (h : capture orders lower parseUrl page req = .ok stat) :
    ∃ s taken post exit,
      FullLoop.collect req.captures.toCollectCaptures parseUrl req.url req.waitForRequest
        req.waitUntilLoad req.timeout page.timerWins page.timeline = .ok (s, exit) ∧
      FullLoop.run req.captures.toCollectCaptures parseUrl req.url req.waitForRequest taken =
        .ok s ∧
      page.timeline.deliveries.filter (fun d => req.captures.subscribed d.ev) = taken ++ post ∧
      (∀ d ∈ post, exit ≤ d.now) ∧
      stat.exceptions = (exceptionsOf taken).map formatException ∧
      stat.jsExceptions = exceptionTable (exceptionsOf taken) ∧
      stat.tlsCertificates =
        certificateTable (certificatesOf req.captures.toCollectCaptures parseUrl taken) := by
  rw [capture] at h
  obtain ⟨-, -, h⟩ := Lib.bind_eq_ok.mp h
  obtain ⟨summary, hsummary, h⟩ := Lib.bind_eq_ok.mp h
  obtain ⟨-, -, h⟩ := Lib.bind_eq_ok.mp h
  obtain ⟨reads, -, h⟩ := Lib.bind_eq_ok.mp h
  obtain ⟨s, taken, post, exit, hcollect, hrun, hsplit, hpost, hrollups⟩ :=
    rollups_collectSummary hlean hsummary
  rw [← rollups_derive parseUrl req reads, Except.ok.inj h] at hrollups
  obtain ⟨hexceptions, hjs, htls⟩ := RollupFields.mk.inj hrollups
  exact ⟨s, taken, post, exit, hcollect, hrun, hsplit, hpost, hexceptions, hjs, htls⟩

/-- A page that loads a script from a host with a certificate, throws twice, and answers what
    a security scan asks. -/
def throwingPage : Page Unit :=
  { deadPage with
    setup := fun _ => .ok ()
    navigate := .ok ()
    start := 0
    timeline :=
      { deliveries :=
          [{ now := 100000000, ev := .lifecycle ⟨"init", 1⟩ },
            { now := 110000000
              ev := .responseReceived
                { requestId := "r1"
                  type := .script
                  response :=
                    { url := "https://cdn.example/a.js"
                      headers := some
                        [("access-control-allow-origin", some "*"),
                          ("access-control-allow-credentials", some "true")]
                      securityDetails := some ⟨"TLS 1.3", "AES_128_GCM", "", "cdn.example", "CA",
                        0, 86400, []⟩ } } },
            { now := 120000000
              ev := .exceptionThrown ⟨"Uncaught", 1, 2, some ⟨"object", some "TypeError",
                none, none⟩⟩ },
            { now := 130000000
              ev := .exceptionThrown ⟨"Uncaught", 3, 4, some ⟨"object", some "TypeError",
                some "TypeError: x is undefined", none⟩⟩ },
            { now := 200000000, ev := .lifecycle ⟨"load", 2⟩ }]
        ordered := ⟨by decide, fun _ _ => Nat.zero_le _⟩ }
    content := .ok "<html></html>"
    securityScan := .ok ⟨(), (), (), (), []⟩ }

/-- A full report with a security scan. -/
def throwingRequest : ReportRequest where
  url := "https://a.example/"
  timeout := 30000000000
  waitUntilLoad := true
  securityScan := true

/-- Some orders of the maps. -/
noncomputable def arbitraryOrders : MapOrders :=
  ⟨.arbitrary, .arbitrary, .arbitrary, .arbitrary, .arbitrary, .arbitrary⟩

/-- Every URL is on one host. -/
def cdnParser (_ : String) : Option ParsedUrl := some ⟨some "cdn.example", ""⟩

/-- The loop takes all events of the page: two exceptions of a class, and a certificate. -/
theorem rollups_capture_throwing :
    ∃ stat taken,
      capture arbitraryOrders id cdnParser throwingPage throwingRequest = .ok stat ∧
      taken.length = 5 ∧
      stat.exceptions = (exceptionsOf taken).map formatException ∧
      stat.jsExceptions = exceptionTable (exceptionsOf taken) ∧
      stat.tlsCertificates =
        certificateTable (certificatesOf throwingRequest.captures.toCollectCaptures cdnParser
          taken) := by
  obtain ⟨stat, h⟩ : ∃ stat,
      capture arbitraryOrders id cdnParser throwingPage throwingRequest = .ok stat := ⟨_, rfl⟩
  obtain ⟨s, taken, post, exit, hcollect, -, hsplit, hpost, hreport⟩ := rollups_capture rfl h
  -- the run ends 100 ms after the last event
  have hexit : exit = 300000000 := by
    have hrun : ∃ s', FullLoop.collect throwingRequest.captures.toCollectCaptures cdnParser
        throwingRequest.url throwingRequest.waitForRequest throwingRequest.waitUntilLoad
        throwingRequest.timeout throwingPage.timerWins throwingPage.timeline =
          .ok (s', 300000000) := ⟨_, rfl⟩
    obtain ⟨s', hs'⟩ := hrun
    exact (Prod.mk.inj (Except.ok.inj (hcollect.symm.trans hs'))).2
  have hall : ∀ d ∈ throwingPage.timeline.deliveries, d.now < 300000000 := by decide
  have hnone : post = [] := by
    refine List.eq_nil_iff_forall_not_mem.mpr fun d hd => ?_
    have hmem := List.mem_append_right taken hd
    rw [← hsplit] at hmem
    exact absurd (hall d (List.mem_of_mem_filter hmem))
      (Nat.not_lt.mpr (hexit ▸ hpost d hd))
  rw [hnone, List.append_nil] at hsplit
  refine ⟨stat, taken, h, ?_, hreport⟩
  rw [← hsplit]
  rfl

/-! ## The findings on the resources -/

/-- A scan that is added joins the page's findings with those on the resources. -/
theorem corsIssues_addScan {raw : Option (SecurityScan V)} {stat : WebPageStat V}
    {scan : SecurityScan V} (hnone : stat.securityScan = none)
    (h : (stat.addScan raw).securityScan = some scan) :
    scan.corsIssues = Security.buildCorsIssues stat.resources := by
  cases raw with
  | none => cases hnone.symm.trans h
  | some raw => exact (congrArg SecurityScan.corsIssues (Option.some.inj h)).symm

/-- The later stages leave the scan alone. -/
theorem securityScan_derive (parseUrl : String → Option ParsedUrl) (req : ReportRequest)
    (reads : Reads V req.toSummaryRequest) (stat : WebPageStat V) :
    (stat.derive parseUrl req reads).securityScan =
      ((stat.assign reads).addScan reads.securityScan.value).securityScan := by
  unfold WebPageStat.derive WebPageStat.dropResources WebPageStat.addHints WebPageStat.addHar
    WebPageStat.addImages
  cases reads.imageSizing.value <;> cases req.har <;> cases reads.resourceHints.value <;>
    cases req.resources <;> rfl

theorem securityScan_collectSummary {orders : MapOrders} {lower : String → String}
    {parseUrl : String → Option ParsedUrl} {page : Page V} {url : String} {timeout : Instant}
    {waitForRequest : List String} {waitUntilLoad : Bool} {c : CollectCaptures}
    {stat : WebPageStat V} (hlean : c.lean = false)
    (h : collectSummary orders lower parseUrl page url timeout waitForRequest waitUntilLoad c =
      .ok stat) : stat.securityScan = none := by
  unfold collectSummary at h
  rw [hlean] at h
  obtain ⟨-, -, h⟩ := Lib.bind_eq_ok.mp h
  obtain ⟨⟨s, exit⟩, -, h⟩ := Lib.bind_eq_ok.mp h
  obtain ⟨cookies, -, h⟩ := Lib.bind_eq_ok.mp h
  obtain ⟨screenshot, -, h⟩ := Lib.bind_eq_ok.mp h
  obtain ⟨coverage, -, h⟩ := Lib.bind_eq_ok.mp h
  rw [← Except.ok.inj h]

/-- The scan of a full report looks at every resource that the run kept, whether or not the
    report has their list: each finding is on one of them that gives credentials to any origin
    or to `null`, no URL comes twice, and such a resource is left out only at the cap. -/
theorem corsIssues_capture {orders : MapOrders} {lower : String → String}
    {parseUrl : String → Option ParsedUrl} {page : Page V} {req : ReportRequest}
    {stat : WebPageStat V} {scan : SecurityScan V} (hlean : req.contentOnly = false)
    (h : capture orders lower parseUrl page req = .ok stat)
    (hscan : stat.securityScan = some scan) :
    ∃ s exit, FullLoop.collect req.captures.toCollectCaptures parseUrl req.url
        req.waitForRequest req.waitUntilLoad req.timeout page.timerWins page.timeline =
          .ok (s, exit) ∧
      (scan.corsIssues.map Security.CorsIssue.url).Nodup ∧
      scan.corsIssues.length ≤ Security.corsCap ∧
      (∀ issue ∈ scan.corsIssues, ∃ r ∈ HashMap.values (FullLoop.retained s),
        r.corsAllowCredentials = true ∧ ∃ acao, r.corsAllowOrigin = some acao ∧
          (trim acao = "*" ∨ eqIgnoreAsciiCase (trim acao) "null" = true) ∧
          issue = ⟨r.url, trim acao, true, "wildcard-with-credentials"⟩) ∧
      ∀ r ∈ HashMap.values (FullLoop.retained s), r.corsAllowCredentials = true →
        ∀ acao, r.corsAllowOrigin = some acao →
          (trim acao = "*" ∨ eqIgnoreAsciiCase (trim acao) "null" = true) →
          r.url ∈ scan.corsIssues.map Security.CorsIssue.url ∨
            scan.corsIssues.length = Security.corsCap := by
  rw [capture] at h
  obtain ⟨-, -, h⟩ := Lib.bind_eq_ok.mp h
  obtain ⟨summary, hsummary, h⟩ := Lib.bind_eq_ok.mp h
  obtain ⟨-, -, h⟩ := Lib.bind_eq_ok.mp h
  obtain ⟨reads, -, h⟩ := Lib.bind_eq_ok.mp h
  rw [← Except.ok.inj h, securityScan_derive] at hscan
  obtain ⟨s, exit, hcollect, -, hlist⟩ := collectSummary_finish hlean hsummary
  have hnone := securityScan_collectSummary hlean hsummary
  have hflag : req.securityScan = true := by
    by_contra hoff
    rw [reads.securityScan.absent (Bool.eq_false_iff.mpr hoff)] at hscan
    cases hnone.symm.trans hscan
  -- the flag keeps the list until the scan has read it
  have hkept : req.captures.freeResources = false := by
    simp [ReportRequest.captures, hflag]
  have hvalues : ∀ r, r ∈ summary.resources ↔ r ∈ HashMap.values (FullLoop.retained s) := by
    intro r
    rw [← hlist hkept, Multiset.mem_coe]
  have hassigned : (summary.assign reads).securityScan = none := hnone
  have hissues := corsIssues_addScan hassigned hscan
  rw [show (summary.assign reads).resources = summary.resources from rfl] at hissues
  have hspec := Security.buildCorsIssues_complete summary.resources
  rw [hissues]
  refine ⟨s, exit, hcollect, hspec.nodup, hspec.length_le, fun issue hissue => ?_,
    fun r hr hcredentials acao horigin hopen => ?_⟩
  · rcases hspec.sound issue hissue with hold | ⟨r, hr, hfound⟩
    · cases hold
    · exact ⟨r, (hvalues r).mp hr, Security.corsIssue_eq_some_iff.mp hfound⟩
  · exact hspec.complete r ((hvalues r).mpr hr) _
      (Security.corsIssue_eq_some_iff.mpr ⟨hcredentials, acao, horigin, hopen, rfl⟩)

/-- The script of the page gives credentials to any origin: that is the finding. -/
theorem corsIssues_capture_throwing :
    ∃ stat scan,
      capture arbitraryOrders id cdnParser throwingPage throwingRequest = .ok stat ∧
      stat.securityScan = some scan ∧
      scan.corsIssues = [⟨"https://cdn.example/a.js", "*", true, "wildcard-with-credentials"⟩] := by
  obtain ⟨stat, scan, h, hscan⟩ : ∃ stat scan,
      capture arbitraryOrders id cdnParser throwingPage throwingRequest = .ok stat ∧
        stat.securityScan = some scan := ⟨_, _, rfl, rfl⟩
  obtain ⟨s, exit, hcollect, hnodup, -, hsound, hcomplete⟩ := corsIssues_capture rfl h hscan
  -- the run keeps one resource
  obtain ⟨r, hvalues, hurl, hcredentials, horigin⟩ : ∃ r,
      HashMap.values (FullLoop.retained s) = {r} ∧ r.url = "https://cdn.example/a.js" ∧
        r.corsAllowCredentials = true ∧ r.corsAllowOrigin = some "*" := by
    have hrun : ∃ s' exit' r, FullLoop.collect throwingRequest.captures.toCollectCaptures cdnParser
        throwingRequest.url throwingRequest.waitForRequest throwingRequest.waitUntilLoad
        throwingRequest.timeout throwingPage.timerWins throwingPage.timeline =
          .ok (s', exit') ∧ HashMap.values (FullLoop.retained s') = {r} ∧
        r.url = "https://cdn.example/a.js" ∧ r.corsAllowCredentials = true ∧
        r.corsAllowOrigin = some "*" := ⟨_, _, _, rfl, rfl, rfl, rfl, rfl⟩
    obtain ⟨s', exit', r, hs', hr⟩ := hrun
    obtain ⟨rfl, -⟩ := Prod.mk.inj (Except.ok.inj (hcollect.symm.trans hs'))
    exact ⟨r, hr⟩
  have hone : ∀ issue ∈ scan.corsIssues,
      issue = ⟨"https://cdn.example/a.js", "*", true, "wildcard-with-credentials"⟩ := by
    intro issue hissue
    obtain ⟨r', hr', -, acao, hacao, -, rfl⟩ := hsound issue hissue
    rw [hvalues, Multiset.mem_singleton] at hr'
    rw [hr', horigin] at hacao
    obtain rfl := Option.some.inj hacao
    rw [hr', hurl]
    rfl
  have hlist := List.eq_replicate_of_mem hone
  rw [hlist, List.map_replicate, List.nodup_replicate] at hnodup
  have hfound := hcomplete r (by rw [hvalues]; exact Multiset.mem_singleton_self r) hcredentials
    "*" horigin (Or.inl rfl)
  refine ⟨stat, scan, h, hscan, ?_⟩
  rcases hissues : scan.corsIssues with _ | ⟨issue, rest⟩
  · rw [hissues] at hfound
    rcases hfound with hmem | hfull
    · cases hmem
    · cases hfull
  · rw [hissues, List.length_cons] at hnodup
    have hrest : rest = [] := List.length_eq_zero_iff.mp (by omega)
    rw [hrest, hone issue (by rw [hissues]; exact List.mem_cons_self)]

end Capture
end BrowserHeadless
