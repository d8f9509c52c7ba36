import CloudPing.Conc.System
import CloudPing.Handler.PingHandler

/-!
# Where the probes of a request dial

The run of one HTTP request on an agent: the handler checks target after target
(`checkTarget`), and once all have passed the pinger starts a probe for each.  A probe is a
`ProbeRun`.  Here the model knows of each probe the URL of the request in the round trip and
of each dial the address it got.

Nothing checks the URL of a redirect, and nothing checks the answer a dial gets.  `stays` is
the condition on both: a dial looks up the host that the handler checked or one that would
pass, and the address it gets is that host, where it is an address, or one in range.
-/

namespace CloudPing.Handler

open Conc
open CloudPing.Pinger CloudPing.Utils CloudPing.Httpprobe

/-! ## One probe -/

/-- The host of an address with a port. -/
def ProbeNet.hostOf (net : ProbeNet) (addr : String) : Option String :=
  (net.splitHostPort addr).toOption.map Prod.fst

/-- The result of the lookup in `doDNSLookup`. -/
def doDNSLookup (net : ProbeNet) (addr : String) (answer : Except String (List IP)) :
    LookupResult :=
  match net.splitHostPort addr with
  | .error err => .splitError err
  | .ok (host, port) =>
    match answer with
    | .error err => .lookupError host err
    | .ok ips =>
      .ips host (ips.map net.ipString)
        (net.joinHostPort ((ips.head?.map net.ipString).getD "") port)

/-- A probe, with what it looks up and where it dials. -/
structure TargetRun where
  tgt : HTTPTarget
  probe : ProbeRun := .start
  /-- The URL of the last request. -/
  url : Option String := none
  /-- The address each dial got. -/
  used : List (Option IP) := []
  resolved : List String := []
  dialled : List IP := []

namespace TargetRun

variable (net : ProbeNet) (t : TargetRun)

def stepProbe (a : ProbeAction) : Option ProbeRun := t.probe.step t.tgt.toHTTPProbe a

/-- What a dial asks. -/
def query (host : String) : HostQuery where
  resolver := given t.tgt.resolver
  network := t.tgt.ipPref.getD "ip"
  host := host

/-- The answer a dial to an address gets, and none where the address has no host. -/
def answer (dns : DNS) (addr : String) : Except String (List IP) :=
  match net.hostOf addr with
  | some host => resolve net dns (t.query host)
  | none => .error ""

/-- `ips[0]`. -/
def usedIP (dns : DNS) (addr : String) : Option IP :=
  (t.answer net dns addr).toOption.bind List.head?

/-- The dial has its address and is making the connection. -/
def dialing (probe : ProbeRun) (j : Nat) : Bool :=
  match probe.dials[j]? with
  | some (.dialing _ _) => true
  | _ => false

/-- A step of the probe.  The first request is for the URL of the target, and a redirect may
lead anywhere.  Dials are made to the URL of the round trip. -/
def step : ProbeAction → Option TargetRun
  | .send req =>
    if t.url.isSome ∨ req.url = net.requestURL t.tgt.url then
      (t.stepProbe (.send req)).map fun probe => { t with probe := probe, url := some req.url }
    else none
  | .startDial network addr =>
    if t.url.map net.dialAddr = some addr then
      (t.stepProbe (.startDial network addr)).map fun probe =>
        { t with probe := probe, used := t.used ++ [none] }
    else none
  -- see `lookup`
  | .lookup _ _ => none
  | .dialLog j =>
    (t.stepProbe (.dialLog j)).map fun probe =>
      { t with
        probe := probe
        dialled := t.dialled ++ if dialing probe j then (t.used[j]?.join).toList else [] }
  | a => (t.stepProbe a).map fun probe => { t with probe := probe }

/-- The address that a dial is to look up. -/
def lookingUp (j : Nat) : Option String :=
  match t.probe.dials[j]? with
  | some (.lookingUp _ addr) => some addr
  | _ => none

/-- The lookup of a dial. -/
def lookup (dns : DNS) (j : Nat) : Option TargetRun :=
  match t.lookingUp j with
  | some addr =>
    (t.stepProbe (.lookup j (doDNSLookup net addr (t.answer net dns addr)))).map fun probe =>
      { t with
        probe := probe
        used := t.used.set j (t.usedIP net dns addr)
        resolved := t.resolved ++ (net.hostOf addr).toList }
  | none => none

end TargetRun

/-! ## The request -/

inductive ServePhase where
  | checking (todo accepted : List HTTPTarget)
  | refused (err : String)
  /-- `HTTPPinger.Ping`, with the requests still to start. -/
  | probing (requests : List HTTPTarget)

structure HTTPServe where
  phase : ServePhase
  probes : List TargetRun := []

inductive ServeAction where
  | check (dns : DNS)
  | ping
  | start
  | probe (i : Nat) (a : ProbeAction)
  | lookup (i j : Nat) (dns : DNS)

namespace HTTPServe

variable (ph : PingHandler) (net : ProbeNet) (pingRequest : SimplePingRequest)

def init : HTTPServe :=
  match ph.checkTargets net pingRequest with
  | .error err => { phase := .refused err }
  | .ok () => { phase := .checking pingRequest.httpTargets [] }

/-- One probe goes on. -/
def setProbe (s : HTTPServe) (i : Nat) (t : TargetRun) : HTTPServe :=
  { s with probes := s.probes.set i t }

def step (s : HTTPServe) : ServeAction → Option HTTPServe
  | .check dns =>
    match s.phase with
    | .checking (tgt :: todo) accepted =>
      match ph.checkTarget net pingRequest dns tgt with
      | .error err => some { s with phase := .refused err }
      | .ok tgt => some { s with phase := .checking todo (accepted ++ [tgt]) }
    | _ => none
  | .ping =>
    match s.phase with
    | .checking [] accepted => some { s with phase := .probing accepted }
    | _ => none
  | .start =>
    match s.phase with
    | .probing (req :: requests) =>
      some { phase := .probing requests
             probes := s.probes ++ [{ tgt := { req with addCA := ph.httpProbeAdditionalCA } }] }
    | _ => none
  | .probe i a => s.probes[i]?.bind fun t => (t.step net a).map (s.setProbe i)
  | .lookup i j dns => s.probes[i]?.bind fun t => (t.lookup net dns j).map (s.setProbe i)

/-- All runs of one request. -/
def system : System HTTPServe ServeAction := ⟨init ph net pingRequest, step ph net pingRequest⟩

/-- Every probe has dialled addresses in range only, and looked up names in range only. -/
def InRange (s : HTTPServe) : Prop :=
  ∀ t ∈ s.probes, (∀ ip ∈ t.dialled, ph.AddrInRange ip) ∧
    ∀ host ∈ t.resolved, ph.NameInRange net host

/-- The host is that of the target's own URL. -/
def Own (t : TargetRun) (host : String) : Prop := net.urlHostname t.tgt.url = .ok host

/-- A dial looks up the host the handler checked or a name in range, and gets the host
itself, where the handler checked it as an address, or an address in range.  An address that
comes after the end of the probe is not dialled. -/
def Stays (t : TargetRun) (dns : DNS) (addr host : String) : Prop :=
  (Own net t host ∨ ph.NameInRange net host) ∧
    ∀ ip ∈ t.usedIP net dns addr, t.probe.evClosed = false →
      (Own net t host ∧ (net.parseIP host).isSome) ∨ ph.AddrInRange ip

def stays : Policy HTTPServe ServeAction := fun s a =>
  match a with
  | .lookup i j dns =>
    ∀ t ∈ s.probes[i]?, ∀ addr ∈ t.lookingUp j, ∀ host ∈ net.hostOf addr,
      Stays ph net t dns addr host
  | .check _ | .ping | .start | .probe _ _ => True

instance (host : String) : Decidable (ph.NameInRange net host) :=
  inferInstanceAs (Decidable (_ → _ → _))

instance (ip : IP) : Decidable (ph.AddrInRange ip) := inferInstanceAs (Decidable (_ → _))

instance (t : TargetRun) (host : String) : Decidable (Own net t host) :=
  inferInstanceAs (Decidable (_ = _))

instance (t : TargetRun) (dns : DNS) (addr host : String) :
    Decidable (Stays ph net t dns addr host) :=
  inferInstanceAs (Decidable (_ ∧ _))

instance : ∀ s a, Decidable (stays ph net s a) := fun s a =>
  match a with
  | .lookup i _ _ => inferInstanceAs (Decidable (∀ t ∈ s.probes[i]?, _))
  | .check _ | .ping | .start | .probe _ _ => isTrue trivial

end HTTPServe

/-! ## What a step of a probe keeps -/

/-- The event channel does not open again. -/
theorem evClosed_of_step {probe : HTTPProbe} {s t : ProbeRun} {a : ProbeAction}
    (h : s.step probe a = some t) (ht : t.evClosed = false) : s.evClosed = false := by
  cases ProbeRun.step_move h with
  | went hm hm' hd he hp => rw [← he, ht]
  | started hm => exact ht
  | closedLogger hm => cases ht
  | closedErr hm => exact ht
  | dialed hi hne hm hd he hp => rw [← he, ht]
  | read hm hd he hp => rw [← he, ht]
  | panicked hc hl => exact ht

/-- A dial that has its address goes on only while the channel is open. -/
theorem evClosed_of_dialing {probe : HTTPProbe} {s t : ProbeRun} {j : Nat}
    (h : s.step probe (.dialLog j) = some t) (hd : TargetRun.dialing t j = true) :
    s.evClosed = false := by
  have hal := ProbeRun.alive_of_step h
  have hst : s.stepDial probe (.dialLog j) = some t := by simpa [ProbeRun.step, hal] using h
  simp only [ProbeRun.stepDial] at hst
  split at hst
  next pc hj =>
    split at hst
    next ev hev =>
      cases hc : s.evClosed with
      | false => rfl
      | true =>
        -- the `Log` has panicked, so the dial is where it was
        exfalso
        rw [ProbeRun.logTo, if_pos hc] at hst
        cases hst
        simp only [TargetRun.dialing, hj] at hd
        cases pc <;> cases hd
        cases hev
    next => cases hst
  next => cases hst

variable {ph : PingHandler} {net : ProbeNet} {pingRequest : SimplePingRequest} {dns : DNS}

namespace TargetRun

variable {t t' : TargetRun} {a : ProbeAction}

/-- What holds of a probe in every run. -/
structure Kept (ph : PingHandler) (net : ProbeNet) (t : TargetRun) : Prop where
  checked : ph.Checked net t.tgt
  dialled : ∀ ip ∈ t.dialled, ph.AddrInRange ip
  resolved : ∀ host ∈ t.resolved, ph.NameInRange net host
  used : t.probe.evClosed = false → ∀ ip, some ip ∈ t.used → ph.AddrInRange ip

/-- A step that looks nothing up and dials nothing. -/
theorem Kept.probe (hk : t.Kept ph net) {p : ProbeRun} (h : t.stepProbe a = some p)
    {url : Option String} : Kept ph net { t with probe := p, url := url } where
  checked := hk.checked
  dialled := hk.dialled
  resolved := hk.resolved
  used := fun hc => hk.used (evClosed_of_step h hc)

theorem Kept.step (hk : t.Kept ph net) (h : t.step net a = some t') : t'.Kept ph net := by
  cases a with
  | send req =>
    obtain ⟨_, h⟩ := Option.ite_none_right_eq_some.1 h
    obtain ⟨p, hp, rfl⟩ := Option.map_eq_some_iff.1 h
    exact hk.probe hp
  | startDial network addr =>
    obtain ⟨_, h⟩ := Option.ite_none_right_eq_some.1 h
    obtain ⟨p, hp, rfl⟩ := Option.map_eq_some_iff.1 h
    refine ⟨hk.checked, hk.dialled, hk.resolved, fun hc ip hip => ?_⟩
    rcases List.mem_append.1 hip with hip | hip
    · exact hk.used (evClosed_of_step hp hc) ip hip
    · cases List.mem_singleton.1 hip
  | dialLog j =>
    obtain ⟨p, hp, rfl⟩ := Option.map_eq_some_iff.1 h
    refine ⟨hk.checked, fun ip hip => ?_, hk.resolved,
      fun hc => hk.used (evClosed_of_step hp hc)⟩
    rcases List.mem_append.1 hip with hip | hip
    · exact hk.dialled ip hip
    · split at hip
      next hd =>
        have hused := Option.join_eq_some_iff.1 (Option.mem_toList.1 hip)
        exact hk.used (evClosed_of_dialing hp hd) ip (List.mem_of_getElem? hused)
      next => cases hip
  | lookup j r => cases h
  | _ =>
    obtain ⟨p, hp, rfl⟩ := Option.map_eq_some_iff.1 h
    exact hk.probe hp

/-- The lookup of a dial, where what is looked up and what is got are in range. -/
theorem Kept.lookup {j : Nat} (hk : t.Kept ph net) (h : t.lookup net dns j = some t')
    (hname : ∀ addr host, t.lookingUp j = some addr → net.hostOf addr = some host →
      ph.NameInRange net host)
    (haddr : ∀ addr ip, t.lookingUp j = some addr → t.usedIP net dns addr = some ip →
      t.probe.evClosed = false → ph.AddrInRange ip) :
    t'.Kept ph net := by
  rw [TargetRun.lookup] at h
  split at h
  next addr hj =>
    obtain ⟨p, hp, rfl⟩ := Option.map_eq_some_iff.1 h
    refine ⟨hk.checked, hk.dialled, fun host hhost => ?_, fun hc ip hip => ?_⟩
    · rcases List.mem_append.1 hhost with hhost | hhost
      · exact hk.resolved host hhost
      · exact hname addr host hj (Option.mem_toList.1 hhost)
    · have ho := evClosed_of_step hp hc
      rcases List.mem_or_eq_of_mem_set hip with hip | hip
      · exact hk.used ho ip hip
      · exact haddr addr ip hj hip.symm ho
  next => cases h

theorem answer_of_hostOf {addr host : String} (h : net.hostOf addr = some host) :
    t.answer net dns addr = resolve net dns (t.query host) := by
  rw [answer, h]

/-- Only an address with a host gets anything. -/
theorem hostOf_of_usedIP {addr : String} {ip : IP} (h : t.usedIP net dns addr = some ip) :
    ∃ host, net.hostOf addr = some host := by
  cases hhost : net.hostOf addr with
  | some host => exact ⟨host, rfl⟩
  | none =>
    rw [usedIP, answer, hhost] at h
    cases h

/-- A host that is an address is what its lookup gets. -/
theorem usedIP_addr {addr host : String} {ip ip' : IP} (hhost : net.hostOf addr = some host)
    (hip : net.parseIP host = some ip) (h : t.usedIP net dns addr = some ip') : ip' = ip := by
  rw [usedIP, answer_of_hostOf hhost] at h
  cases hres : resolve net dns (t.query host) with
  | error err => rw [hres] at h; cases h
  | ok ips =>
    obtain rfl := resolve_addr hip hres
    rw [hres] at h
    cases h
    rfl

end TargetRun

namespace HTTPServe

variable {s s' : HTTPServe} {a : ServeAction}

/-- The targets of the phase have been checked, as far as they are accepted. -/
def Accepted (ph : PingHandler) (net : ProbeNet) : ServePhase → Prop
  | .checking _ accepted => ∀ tgt ∈ accepted, ph.Checked net tgt
  | .refused _ => True
  | .probing requests => ∀ tgt ∈ requests, ph.Checked net tgt

structure Inv (ph : PingHandler) (net : ProbeNet) (s : HTTPServe) : Prop where
  accepted : Accepted ph net s.phase
  kept : ∀ t ∈ s.probes, t.Kept ph net

theorem inv_init : Inv ph net (init ph net pingRequest) := by
  rw [init]
  split
  next => exact ⟨trivial, fun t ht => absurd ht List.not_mem_nil⟩
  next => exact ⟨fun tgt h => absurd h List.not_mem_nil, fun t ht => absurd ht List.not_mem_nil⟩

theorem Inv.setProbe (hi : Inv ph net s) {i : Nat} {t : TargetRun} (ht : t.Kept ph net) :
    Inv ph net (s.setProbe i t) := by
  refine ⟨hi.accepted, fun t' ht' => ?_⟩
  rcases List.mem_or_eq_of_mem_set ht' with ht' | rfl
  · exact hi.kept t' ht'
  · exact ht

theorem Inv.step (hi : Inv ph net s) (hok : stays ph net s a)
    (h : step ph net pingRequest s a = some s') : Inv ph net s' := by
  cases a with
  | check dns =>
    simp only [HTTPServe.step] at h
    split at h
    next tgt todo accepted hphase =>
      have hacc := hi.accepted
      rw [hphase] at hacc
      split at h
      next => cases h; exact ⟨trivial, hi.kept⟩
      next tgt' htgt =>
        cases h
        refine ⟨fun tgt'' hmem => ?_, hi.kept⟩
        rcases List.mem_append.1 hmem with hmem | hmem
        · exact hacc tgt'' hmem
        · rw [List.mem_singleton.1 hmem]
          exact (PingHandler.checkTarget_ok htgt).2
    next => cases h
  | ping =>
    simp only [HTTPServe.step] at h
    split at h
    next accepted hphase =>
      have hacc := hi.accepted
      rw [hphase] at hacc
      cases h
      exact ⟨hacc, hi.kept⟩
    next => cases h
  | start =>
    simp only [HTTPServe.step] at h
    split at h
    next req requests hphase =>
      have hacc := hi.accepted
      rw [hphase] at hacc
      cases h
      refine ⟨fun tgt hmem => hacc tgt (List.mem_cons_of_mem _ hmem), fun t ht => ?_⟩
      rcases List.mem_append.1 ht with ht | ht
      · exact hi.kept t ht
      · rw [List.mem_singleton.1 ht]
        have hreq := hacc req List.mem_cons_self
        exact ⟨⟨hreq.name, hreq.addr, hreq.resolver⟩, fun ip hip => absurd hip List.not_mem_nil,
          fun host hh => absurd hh List.not_mem_nil, fun _ ip hip => absurd hip List.not_mem_nil⟩
    next => cases h
  | probe i a =>
    obtain ⟨t, ht, h⟩ := Option.bind_eq_some_iff.1 h
    obtain ⟨t', ht', rfl⟩ := Option.map_eq_some_iff.1 h
    exact hi.setProbe ((hi.kept t (List.mem_of_getElem? ht)).step ht')
  | lookup i j dns =>
    obtain ⟨t, ht, h⟩ := Option.bind_eq_some_iff.1 h
    obtain ⟨t', ht', rfl⟩ := Option.map_eq_some_iff.1 h
    have hk := hi.kept t (List.mem_of_getElem? ht)
    refine hi.setProbe (hk.lookup ht' ?_ ?_)
    · intro addr host hj hhost
      rcases (hok t ht addr hj host hhost).1 with hown | hname
      · exact hk.checked.name host hown
      · exact hname
    · intro addr ip hj hip hc
      obtain ⟨host, hhost⟩ := TargetRun.hostOf_of_usedIP hip
      rcases (hok t ht addr hj host hhost).2 ip hip hc with ⟨hown, haddr⟩ | hrange
      · obtain ⟨ip', hip'⟩ := Option.isSome_iff_exists.1 haddr
        rw [TargetRun.usedIP_addr hhost hip' hip]
        exact hk.checked.addr host ip' hown hip'
      · exact hrange

theorem inv (h : (system ph net pingRequest).Reachable (stays ph net) s) : Inv ph net s :=
  h.invariant inv_init fun _ _ _ hi hok hst => hi.step hok hst

/-! ## The promise -/

/-- In every run whose dials look up and get what `stays` allows, no probe leaves the
ranges. -/
theorem probes_in_range (ph : PingHandler) (net : ProbeNet) (pingRequest : SimplePingRequest)
    (s : HTTPServe) (h : (system ph net pingRequest).Reachable (stays ph net) s) :
    s.InRange ph net := fun t ht =>
  ⟨((inv h).kept t ht).dialled, ((inv h).kept t ht).resolved⟩

/-! ### A name that moves -/

/-- A network where `example.com` is the host of the only URL. -/
def sampleNet : ProbeNet where
  lookupIP _ _ := .error ""
  parseCIDR _ := none
  parseIP _ := none
  splitHost _ := none
  urlHostname _ := .ok "example.com"
  urlWithPath _ _ := none
  ipString _ := ""
  splitHostPort _ := .ok ("example.com", "80")
  joinHostPort host port := host ++ ":" ++ port
  requestURL url := url
  dialAddr _ := "example.com:80"

/-- An agent that responds to 10.0.0.0/8. -/
def sampleAgent : PingHandler where
  respondRange := [⟨[10, 0, 0, 0], [255, 0, 0, 0]⟩]

def sampleRequest : SimplePingRequest where
  intvMilliseconds := 1000
  pktTimeoutMilliseconds := 3000
  l7PacketType := some l7ProtoHTTP
  httpTargets := [{ url := "http://example.com/", proto := none, sizeLimit := none,
                    ipPref := none, numHeadersFieldsLimit := none }]

/-- The target is checked while its name leads to `checked`, and dialled when it leads to
`dialled`. -/
def dialRun (checked dialled : IP) : List ServeAction :=
  [.check fun _ => .ok [checked], .ping, .start] ++
    ([.getTransport none, .newRequest true, .send ⟨"GET", "http://example.com/", "/", "HTTP/1.1", []⟩,
      .log, .forward, .log, .forward, .log, .forward, .log, .forward,
      .startDial "tcp" "example.com:80", .dialLog 0, .forward].map (ServeAction.probe 0)) ++
    [.lookup 0 0 fun _ => .ok [dialled]] ++
    ([.dialLog 0, .forward, .dialLog 0].map (ServeAction.probe 0))

/-- A name that stays where it was is dialled. -/
theorem probes_in_range_stable :
    ∃ s, (system sampleAgent sampleNet sampleRequest).Reachable (stays sampleAgent sampleNet) s ∧
      (∃ t ∈ s.probes, [10, 0, 0, 1] ∈ t.dialled) ∧ s.InRange sampleAgent sampleNet := by
  obtain ⟨s, hr, hp⟩ := System.exists_of_replay (system sampleAgent sampleNet sampleRequest)
    (stays sampleAgent sampleNet) (fun s => s.probes.any fun t => t.dialled.contains [10, 0, 0, 1])
    (dialRun [10, 0, 0, 1] [10, 0, 0, 1]) (by decide +kernel)
  obtain ⟨t, ht, hd⟩ := List.any_eq_true.1 hp
  exact ⟨s, hr, ⟨t, ht, List.contains_iff_mem.1 hd⟩, probes_in_range _ _ _ s hr⟩

/-- The name leads to another address when it is dialled. -/
theorem rebound_name_dialled :
    ¬ ∀ s, (system sampleAgent sampleNet sampleRequest).Reachable Policy.any s →
      s.InRange sampleAgent sampleNet := by
  intro h
  obtain ⟨s, hr, hp⟩ := System.exists_of_replay (system sampleAgent sampleNet sampleRequest)
    Policy.any (fun s => s.probes.any fun t => t.dialled.contains [192, 0, 2, 1])
    (dialRun [10, 0, 0, 1] [192, 0, 2, 1]) (by decide +kernel)
  obtain ⟨t, ht, hd⟩ := List.any_eq_true.1 hp
  have hin := (h s hr t ht).1 [192, 0, 2, 1] (List.contains_iff_mem.1 hd) (by simp [sampleAgent])
  revert hin
  decide

end HTTPServe

end CloudPing.Handler
