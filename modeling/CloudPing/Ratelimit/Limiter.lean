import CloudPing.Ratelimit.TokenPool

/-!
# The pipelines of the limiter

A pipeline of `GetIO` has at most one item in hand.  What it took is what it has passed on and
what it has in hand, in order; and it passes an item on only after a `Consume` for the key of
the item has succeeded (`Relayed`).

Nothing stops a pipeline for good while the pool runs and a key has tokens: from every state
the item in hand can still be passed on (`can_forward`).  That it will be is not promised; the
tokens can go to others in every epoch (`Starving.next`), and a pool without tokens passes nothing
on (`not_canForward_of_zero`).
-/

namespace CloudPing.Ratelimit.TokenPool

open Conc

variable {I : Type*} {getKey : Nat → I → Except String String} {numTokensPerKey : Nat}
  {s t : PoolRun I} {a : PoolAction I} {tr : List (PoolEvent I)} {ev : PoolEvent I} {c : Nat}
  {val : I}

/-! ## What a pipeline takes and passes on -/

def PoolEvent.tookBy (c : Nat) : PoolEvent I → Option I
  | .took c' val => if c' = c then some val else none
  | _ => none

def PoolEvent.forwardedBy (c : Nat) : PoolEvent I → Option I
  | .forwarded c' val => if c' = c then some val else none
  | _ => none

/-- The items the pipeline took from `inC`, the last one first. -/
def taken (c : Nat) (tr : List (PoolEvent I)) : List I := tr.filterMap (PoolEvent.tookBy c)

/-- The items it has passed on to `outC`, the last one first. -/
def passed (c : Nat) (tr : List (PoolEvent I)) : List I := tr.filterMap (PoolEvent.forwardedBy c)

theorem taken_of_none (h : ev.tookBy c = none) : taken c (ev :: tr) = taken c tr :=
  List.filterMap_cons_none h

theorem passed_of_none (h : ev.forwardedBy c = none) : passed c (ev :: tr) = passed c tr :=
  List.filterMap_cons_none h

theorem taken_took : taken c (.took c val :: tr) = val :: taken c tr :=
  List.filterMap_cons_some (if_pos rfl)

theorem passed_forwarded : passed c (.forwarded c val :: tr) = val :: passed c tr :=
  List.filterMap_cons_some (if_pos rfl)

theorem taken_closes (c epoch : Nat) (l : List Nat) (tr : List (PoolEvent I)) :
    taken c (l.map (.closed epoch) ++ tr) = taken c tr := by
  induction l with
  | nil => rfl
  | cons listener l ih => exact ih

theorem passed_closes (c epoch : Nat) (l : List Nat) (tr : List (PoolEvent I)) :
    passed c (l.map (.closed epoch) ++ tr) = passed c tr := by
  induction l with
  | nil => rfl
  | cons listener l ih => exact ih

theorem tookBy_ne {c' : Nat} (h : c' ≠ c) : (PoolEvent.took c val).tookBy c' = none :=
  if_neg h.symm

theorem forwardedBy_ne {c' : Nat} (h : c' ≠ c) :
    (PoolEvent.forwarded c val).forwardedBy c' = none :=
  if_neg h.symm

def ClientPC.inHand : ClientPC I → Option I
  | .inCall (.pipeline val _) _ _ | .sending val | .fatal val => some val
  | .inCall .direct _ _ | .idle | .selecting | .returned => none

/-- The item is the last one the pipeline took. -/
def Took (c : Nat) (val : I) (tr : List (PoolEvent I)) : Prop :=
  ∃ since earlier, tr = since ++ .took c val :: earlier ∧ taken c since = []

/-- Since it took the item, and nothing later, the pipeline has consumed a token for the key
of the item. -/
def Granted (getKey : Nat → I → Except String String) (c : Nat) (val : I)
    (tr : List (PoolEvent I)) : Prop :=
  ∃ key epoch since earlier, tr = since ++ .took c val :: earlier ∧ taken c since = [] ∧
    getKey c val = .ok key ∧ .consumed epoch c key true ∈ since

theorem Took.cons (h : Took c val tr) (hev : ev.tookBy c = none) : Took c val (ev :: tr) := by
  obtain ⟨since, earlier, rfl, hnone⟩ := h
  exact ⟨ev :: since, earlier, rfl, (taken_of_none hev).trans hnone⟩

theorem Granted.cons (h : Granted getKey c val tr) (hev : ev.tookBy c = none) :
    Granted getKey c val (ev :: tr) := by
  obtain ⟨key, epoch, since, earlier, rfl, hnone, hkey, hmem⟩ := h
  exact ⟨key, epoch, ev :: since, earlier, rfl, (taken_of_none hev).trans hnone, hkey,
    List.mem_cons_of_mem _ hmem⟩

/-- A token for the key of the item in hand. -/
theorem Took.grant {key : String} {epoch : Nat} (h : Took c val tr)
    (hkey : getKey c val = .ok key) :
    Granted getKey c val (.consumed epoch c key true :: tr) := by
  obtain ⟨since, earlier, rfl, hnone⟩ := h
  exact ⟨key, epoch, .consumed epoch c key true :: since, earlier, rfl, hnone, hkey,
    List.mem_cons_self⟩

/-! ## Order -/

/-- A pipeline in a call of the pool is about the key of its item, and one at its send has
consumed a token. -/
def ClientPC.Relays (getKey : Nat → I → Except String String) (tr : List (PoolEvent I))
    (c : Nat) : ClientPC I → Prop
  | .inCall (.pipeline val key) call _ =>
    Took c val tr ∧ getKey c val = .ok key ∧ ∀ key', call = .consume key' → key' = key
  | .sending val => Granted getKey c val tr
  | _ => True

theorem ClientPC.Relays.cons {pc : ClientPC I} (h : pc.Relays getKey tr c)
    (hev : ev.tookBy c = none) : pc.Relays getKey (ev :: tr) c := by
  cases pc with
  | inCall caller call at_ =>
    cases caller with
    | direct => trivial
    | pipeline val key => exact ⟨h.1.cons hev, h.2⟩
  | sending val => exact Granted.cons h hev
  | idle | selecting | returned | fatal => trivial

structure Relayed (getKey : Nat → I → Except String String) (s : PoolRun I) : Prop where
  order : ∀ c, taken c s.trace = (s.clients c).inHand.toList ++ passed c s.trace
  relays : ∀ c, (s.clients c).Relays getKey s.trace c
  granted : ∀ later c val earlier, s.trace = later ++ .forwarded c val :: earlier →
    Granted getKey c val earlier

namespace Relayed

open PoolRun

theorem start : Relayed getKey (PoolRun.start : PoolRun I) where
  order := fun _ => rfl
  relays := fun _ => trivial
  granted := by
    intro later c val earlier h
    exact absurd h.symm (by simp [PoolRun.start])

theorem congr (h : Relayed getKey s) (hclients : t.clients = s.clients)
    (htrace : t.trace = s.trace) : Relayed getKey t := by
  constructor
  · rw [hclients, htrace]
    exact h.order
  · rw [hclients, htrace]
    exact h.relays
  · rw [htrace]
    exact h.granted

/-- A client goes on, with the same item in hand. -/
theorem goto (h : Relayed getKey s) {pc : ClientPC I}
    (hhand : pc.inHand = (s.clients c).inHand) (hpc : pc.Relays getKey s.trace c) :
    Relayed getKey (s.goto c pc) := by
  refine ⟨fun c' => ?_, fun c' => ?_, h.granted⟩
  · by_cases hc : c' = c
    · subst hc
      rw [goto_clients_self, hhand]
      exact h.order c'
    · rw [goto_clients_ne hc]
      exact h.order c'
  · by_cases hc : c' = c
    · subst hc
      rwa [goto_clients_self]
    · rw [goto_clients_ne hc]
      exact h.relays c'

/-- What passes on an item is the newest event, or an earlier one. -/
theorem granted_cons (h : Relayed getKey s)
    (hev : ∀ c val, ev = .forwarded c val → Granted getKey c val s.trace) :
    ∀ later c val earlier, ev :: s.trace = later ++ .forwarded c val :: earlier →
      Granted getKey c val earlier := by
  intro later c val earlier htr
  cases later with
  | nil =>
    obtain ⟨he, rfl⟩ := List.cons.inj htr
    exact hev c val he
  | cons ev' later => exact h.granted later c val earlier (List.cons.inj htr).2

/-- Something happens that is no take and no send. -/
theorem log (h : Relayed getKey s) (ht : ∀ c, ev.tookBy c = none)
    (hf : ∀ c, ev.forwardedBy c = none) : Relayed getKey (s.log ev) := by
  refine ⟨fun c => ?_, fun c => (h.relays c).cons (ht c), h.granted_cons ?_⟩
  · exact (taken_of_none (ht c)).trans
      ((h.order c).trans (congrArg _ (passed_of_none (hf c)).symm))
  · rintro c val rfl
    have hnone := hf c
    simp [PoolEvent.forwardedBy] at hnone

/-- A pipeline takes an item. -/
theorem take (h : Relayed getKey s) {pc : ClientPC I} (hc : s.clients c = .selecting)
    (hhand : pc.inHand = some val) (hpc : pc.Relays getKey (.took c val :: s.trace) c) :
    Relayed getKey ((s.log (.took c val)).goto c pc) := by
  refine ⟨fun c' => ?_, fun c' => ?_, h.granted_cons (by rintro _ _ ⟨⟩)⟩
  · have hold := h.order c'
    show taken c' (.took c val :: s.trace) = _ ++ passed c' (.took c val :: s.trace)
    rw [passed_of_none rfl]
    by_cases hcc : c' = c
    · subst hcc
      rw [hc] at hold
      rw [goto_clients_self, hhand, taken_took]
      exact congrArg (val :: ·) hold
    · rw [goto_clients_ne hcc, taken_of_none (tookBy_ne hcc)]
      exact hold
  · by_cases hcc : c' = c
    · subst hcc
      rwa [goto_clients_self]
    · rw [goto_clients_ne hcc]
      exact (h.relays c').cons (tookBy_ne hcc)

/-- A pipeline passes its item on. -/
theorem forward (h : Relayed getKey s) (hc : s.clients c = .sending val) :
    Relayed getKey ((s.log (.forwarded c val)).goto c .selecting) := by
  have hgranted := h.relays c
  rw [hc] at hgranted
  refine ⟨fun c' => ?_, fun c' => ?_, h.granted_cons ?_⟩
  · have hold := h.order c'
    show taken c' (.forwarded c val :: s.trace) = _ ++ passed c' (.forwarded c val :: s.trace)
    rw [taken_of_none rfl]
    by_cases hcc : c' = c
    · subst hcc
      rw [hc] at hold
      rw [goto_clients_self, passed_forwarded]
      exact hold
    · rw [goto_clients_ne hcc, passed_of_none (forwardedBy_ne hcc)]
      exact hold
  · by_cases hcc : c' = c
    · subst hcc
      rw [goto_clients_self]
      trivial
    · rw [goto_clients_ne hcc]
      exact (h.relays c').cons rfl
  · rintro c' val' ⟨⟩
    exact hgranted

/-- The closes of a tick. -/
theorem tick (h : Relayed getKey s) : Relayed getKey s.tick := by
  have hlog (l : List Nat) :
      Relayed getKey { s with trace := l.map (.closed s.epoch) ++ s.trace } := by
    induction l with
    | nil => exact h
    | cons listener l ih => exact (ih.log (fun _ => rfl) fun _ => rfl).congr rfl rfl
  exact (hlog s.listeners).congr rfl rfl

/-- A call goes on. -/
theorem inCall (h : Relayed getKey s) {caller : Caller I} {call : PoolCall} {pc pc' : CallPC}
    (hc : s.clients c = .inCall caller call pc) :
    Relayed getKey (s.goto c (.inCall caller call pc')) := by
  have hrelays := h.relays c
  rw [hc] at hrelays
  refine h.goto ?_ ?_
  · rw [hc]
    cases caller <;> rfl
  · cases caller with
    | direct => trivial
    | pipeline val key => exact hrelays

/-- A request is run. -/
theorem serve (h : Relayed getKey s) {caller : Caller I} {call : PoolCall}
    (hc : s.clients c = .inCall caller call .awaiting) :
    Relayed getKey (s.serve numTokensPerKey c caller call) := by
  have hrelays := h.relays c
  rw [hc] at hrelays
  cases call with
  | consume key =>
    have hlog : Relayed getKey ({ s with
        actor := .selecting
        tokensMap := Function.update s.tokensMap key
          (some (doConsume numTokensPerKey s.tokensMap key)) }.log
        (.consumed s.epoch c key (0 ≤ doConsume numTokensPerKey s.tokensMap key))) :=
      (h.log (fun _ => rfl) fun _ => rfl).congr rfl rfl
    rw [PoolRun.serve]
    generalize hok : decide (0 ≤ doConsume numTokensPerKey s.tokensMap key) = ok at hlog ⊢
    cases caller with
    | direct => exact hlog.goto (congrArg ClientPC.inHand hc).symm trivial
    | pipeline val key' =>
      obtain ⟨htook, hkey, hsame⟩ := hrelays
      cases hsame key rfl
      cases ok with
      | true => exact hlog.goto (congrArg ClientPC.inHand hc).symm (htook.grant hkey)
      | false =>
        refine hlog.goto (congrArg ClientPC.inHand hc).symm ⟨htook.cons rfl, hkey, ?_⟩
        rintro _ ⟨⟩
  | waitForRefresh =>
    have hlog : Relayed getKey ({ s with
        actor := .selecting, listeners := s.listeners ++ [s.nextListener]
        nextListener := s.nextListener + 1 }.log (.registered s.epoch s.nextListener)) :=
      (h.log (fun _ => rfl) fun _ => rfl).congr rfl rfl
    exact hlog.inCall hc

theorem move (h : Relayed getKey s) (hm : Move getKey numTokensPerKey s t) :
    Relayed getKey t := by
  cases hm with
  | called hc => exact h.goto (by rw [hc]; rfl) trivial
  | opened hc => exact h.goto (by rw [hc]; rfl) trivial
  | took hc hkey =>
    refine h.take hc rfl ⟨⟨[], s.trace, rfl, rfl⟩, hkey, ?_⟩
    rintro _ ⟨⟩
    rfl
  | @keyless c val msg hc =>
    have htook : Relayed getKey ((s.log (.took c val)).goto c (.fatal val)) :=
      h.take hc rfl trivial
    exact htook.congr rfl rfl
  | left hc => exact h.goto (by rw [hc]; rfl) trivial
  | @accepted c caller call ha hc =>
    have hactor : Relayed getKey { s with actor := .receiving c } := h.congr rfl rfl
    exact hactor.inCall hc
  | @submitted c caller call ha hc =>
    have hactor : Relayed getKey { s with actor := .serving c } := h.congr rfl rfl
    exact hactor.inCall hc
  | refused hc => exact h.goto (by rw [hc]; rfl) trivial
  | @died c val key call msg hc =>
    have hgoto : Relayed getKey (s.goto c (.fatal val)) := h.goto (by rw [hc]; rfl) trivial
    exact hgoto.congr rfl rfl
  | served ha hc => exact h.serve hc
  | @woken c caller call listener hc =>
    have hrelays := h.relays c
    rw [hc] at hrelays
    cases caller with
    | direct => exact h.goto (by rw [hc]; rfl) trivial
    | pipeline val key =>
      refine h.goto (by rw [hc]; rfl) ⟨hrelays.1, hrelays.2.1, ?_⟩
      rintro _ ⟨⟩
      rfl
  | forwarded hc => exact h.forward hc
  | ticked => exact h.tick
  | stopped => exact h.congr rfl rfl

end Relayed

/-! ## An item in hand can be passed on -/

/-- Where the goroutine is, if it is with this client. -/
def ActorPC.about (c : Nat) : ActorPC → Option ActorPC
  | .receiving c' => if c' = c then some (.receiving c) else none
  | .serving c' => if c' = c then some (.serving c) else none
  | .selecting | .closed => none

/-- Where the goroutine is, from the client's view. -/
def ClientPC.actor (c : Nat) : ClientPC I → Option ActorPC
  | .inCall _ _ .submitting => some (.receiving c)
  | .inCall _ _ .awaiting => some (.serving c)
  | _ => none

/-- A listener that is waited for is closed, or the next tick closes it. -/
def ClientPC.Hears (listeners closed : List Nat) : ClientPC I → Prop
  | .inCall _ _ (.listening listener) => listener ∈ listeners ∨ listener ∈ closed
  | _ => True

theorem ClientPC.Hears.mono {pc : ClientPC I} {listeners closed listeners' closed' : List Nat}
    (h : pc.Hears listeners closed) (hsub : ∀ listener, listener ∈ listeners ∨ listener ∈ closed →
      listener ∈ listeners' ∨ listener ∈ closed') : pc.Hears listeners' closed' := by
  cases pc with
  | inCall caller call pc =>
    cases pc with
    | listening listener => exact hsub listener h
    | requesting | submitting | awaiting => trivial
  | idle | selecting | sending | returned | fatal => trivial

/-- The program has ended when a client has called `log.Fatal`. -/
def ClientPC.Alive (exited : Option String) : ClientPC I → Prop
  | .fatal _ => exited.isSome = true
  | _ => True

structure Served (s : PoolRun I) : Prop where
  agree : ∀ c, (s.clients c).actor c = s.actor.about c
  hears : ∀ c, (s.clients c).Hears s.listeners s.closed
  alive : ∀ c, (s.clients c).Alive s.exited

theorem ActorPC.about_ne {c c' : Nat} (h : c' ≠ c) :
    (ActorPC.receiving c).about c' = none ∧ (ActorPC.serving c).about c' = none :=
  ⟨if_neg (Ne.symm h), if_neg (Ne.symm h)⟩

namespace Served

open PoolRun

theorem start : Served (PoolRun.start : PoolRun I) :=
  ⟨fun _ => rfl, fun _ => trivial, fun _ => trivial⟩

/-- A client goes on; the others do not see that the goroutine does. -/
theorem goto (h : Served s) {actor : ActorPC} {pc : ClientPC I}
    (hactor : pc.actor c = actor.about c) (hothers : ∀ c' ≠ c, actor.about c' = s.actor.about c')
    (hhears : pc.Hears s.listeners s.closed) (halive : pc.Alive s.exited) :
    Served ({ s with actor := actor }.goto c pc) := by
  refine ⟨fun c' => ?_, fun c' => ?_, fun c' => ?_⟩
  · by_cases hc : c' = c
    · subst hc
      rw [goto_clients_self]
      exact hactor
    · rw [goto_clients_ne hc]
      exact (h.agree c').trans (hothers c' hc).symm
  · by_cases hc : c' = c
    · subst hc
      rwa [goto_clients_self]
    · rw [goto_clients_ne hc]
      exact h.hears c'
  · by_cases hc : c' = c
    · subst hc
      rwa [goto_clients_self]
    · rw [goto_clients_ne hc]
      exact h.alive c'

/-- A client goes on while the goroutine is elsewhere. -/
theorem stay (h : Served s) {pc : ClientPC I} (hold : (s.clients c).actor c = none)
    (hactor : pc.actor c = none) (hhears : pc.Hears s.listeners s.closed)
    (halive : pc.Alive s.exited) : Served (s.goto c pc) :=
  h.goto (hactor.trans (hold.symm.trans (h.agree c))) (fun _ _ => rfl) hhears halive

/-- The tokens, the epoch and the events do not matter. -/
theorem congr (h : Served s) (hclients : t.clients = s.clients) (hactor : t.actor = s.actor)
    (hlisteners : t.listeners = s.listeners) (hclosed : t.closed = s.closed)
    (hexited : t.exited = s.exited) : Served t := by
  refine ⟨?_, ?_, ?_⟩
  · rw [hclients, hactor]
    exact h.agree
  · rw [hclients, hlisteners, hclosed]
    exact h.hears
  · rw [hclients, hexited]
    exact h.alive

/-- A client calls `log.Fatal`. -/
theorem die (h : Served s) {msg : String} (hold : (s.clients c).actor c = none) :
    Served (s.die c val msg) := by
  have hexit : Served { s with exited := some msg } := by
    refine ⟨h.agree, h.hears, fun c' => ?_⟩
    cases hc : s.clients c' with
    | fatal => rfl
    | idle | selecting | inCall | sending | returned => trivial
  exact hexit.stay hold rfl trivial rfl

theorem move (h : Served s) (hm : Move getKey numTokensPerKey s t) : Served t := by
  cases hm with
  | called hc => exact h.stay (by rw [hc]; rfl) rfl trivial trivial
  | opened hc => exact h.stay (by rw [hc]; rfl) rfl trivial trivial
  | @took c val key hc hkey =>
    have hgoto : Served (s.goto c (.inCall (.pipeline val key) (.consume key) .requesting)) :=
      h.stay (by rw [hc]; rfl) rfl trivial trivial
    exact hgoto.congr rfl rfl rfl rfl rfl
  | @keyless c val msg hc =>
    have hdie : Served (s.die c val msg) := h.die (by rw [hc]; rfl)
    exact hdie.congr rfl rfl rfl rfl rfl
  | left hc => exact h.stay (by rw [hc]; rfl) rfl trivial trivial
  | @accepted c caller call ha hc =>
    refine h.goto (if_pos rfl).symm (fun c' hne => ?_) trivial trivial
    rw [(ActorPC.about_ne hne).1, ha]
    rfl
  | refused hc => exact h.stay (by rw [hc]; rfl) rfl trivial trivial
  | died hc => exact h.die (by rw [hc]; rfl)
  | @submitted c caller call ha hc =>
    refine h.goto (if_pos rfl).symm (fun c' hne => ?_) trivial trivial
    rw [(ActorPC.about_ne hne).2, ha, (ActorPC.about_ne hne).1]
  | @served c caller call ha hc =>
    have hothers : ∀ c' ≠ c, ActorPC.selecting.about c' = s.actor.about c' := by
      intro c' hne
      rw [ha, (ActorPC.about_ne hne).2]
      rfl
    cases call with
    | consume key =>
      have hgoto : Served ({ s with actor := .selecting }.goto c
          (caller.consumed (0 ≤ doConsume numTokensPerKey s.tokensMap key))) := by
        generalize decide (0 ≤ doConsume numTokensPerKey s.tokensMap key) = ok
        refine h.goto ?_ hothers ?_ ?_
        · cases caller <;> cases ok <;> rfl
        · cases caller <;> cases ok <;> trivial
        · cases caller <;> cases ok <;> trivial
      exact hgoto.congr rfl rfl rfl rfl rfl
    | waitForRefresh =>
      have hmore : Served { s with listeners := s.listeners ++ [s.nextListener] } :=
        ⟨h.agree, fun c => (h.hears c).mono fun listener hl =>
          hl.imp_left (List.mem_append_left _), h.alive⟩
      have hgoto : Served ({ s with
          listeners := s.listeners ++ [s.nextListener], actor := .selecting }.goto c
            (.inCall caller .waitForRefresh (.listening s.nextListener))) :=
        hmore.goto rfl hothers
          (Or.inl (List.mem_append_right _ (List.mem_singleton_self _))) trivial
      exact hgoto.congr rfl rfl rfl rfl rfl
  | @woken c caller call listener hc =>
    refine h.stay (by rw [hc]; rfl) ?_ ?_ ?_
    · cases caller <;> rfl
    · cases caller <;> trivial
    · cases caller <;> trivial
  | @forwarded c val hc =>
    have hgoto : Served (s.goto c .selecting) := h.stay (by rw [hc]; rfl) rfl trivial trivial
    exact hgoto.congr rfl rfl rfl rfl rfl
  | ticked ha =>
    refine ⟨h.agree, fun c => (h.hears c).mono fun listener hl => Or.inr ?_, h.alive⟩
    exact List.mem_append.2 hl
  | stopped ha =>
    refine ⟨fun c => (h.agree c).trans ?_, h.hears, h.alive⟩
    rw [ha]
    rfl

end Served

theorem served (h : (poolSystem getKey numTokensPerKey).Reachable .any s) : Served s :=
  h.invariant Served.start fun _ _ _ hs _ hst => hs.move (PoolRun.step_move hst)

/-- The client can pass on the item. -/
def CanForward (getKey : Nat → I → Except String String) (numTokensPerKey : Nat) (s : PoolRun I)
    (c : Nat) (val : I) : Prop :=
  ∃ t tr, (poolSystem getKey numTokensPerKey).Reach .any s t ∧ t.trace = .forwarded c val :: tr

theorem CanForward.head (hst : (poolSystem getKey numTokensPerKey).step s a = some t)
    (h : CanForward getKey numTokensPerKey t c val) :
    CanForward getKey numTokensPerKey s c val := by
  obtain ⟨u, tr, hr, htr⟩ := h
  exact ⟨u, tr, .head hst trivial hr, htr⟩

theorem PoolRun.inHand_goto {c' : Nat} {pc : ClientPC I}
    (h : pc.inHand = (s.clients c').inHand) :
    ((s.goto c' pc).clients c).inHand = (s.clients c).inHand := by
  by_cases hc : c = c'
  · subst hc
    rw [goto_clients_self, h]
  · rw [goto_clients_ne hc]

theorem ClientPC.eq_of_submitting {pc : ClientPC I} (h : pc.actor c = some (.receiving c)) :
    ∃ caller call, pc = .inCall caller call .submitting := by
  cases pc with
  | inCall caller call pc =>
    cases pc with
    | submitting => exact ⟨caller, call, rfl⟩
    | requesting | awaiting | listening => cases h
  | idle | selecting | sending | returned | fatal => cases h

theorem ClientPC.eq_of_awaiting {pc : ClientPC I} (h : pc.actor c = some (.serving c)) :
    ∃ caller call, pc = .inCall caller call .awaiting := by
  cases pc with
  | inCall caller call pc =>
    cases pc with
    | awaiting => exact ⟨caller, call, rfl⟩
    | requesting | submitting | listening => cases h
  | idle | selecting | sending | returned | fatal => cases h

section Progress

variable {key : String} (hx : s.exited = none)

include hx

theorem canForward_sending (hc : s.clients c = .sending val) :
    CanForward getKey numTokensPerKey s c val := by
  have hst : (poolSystem getKey numTokensPerKey).step s (.forward c) =
      some ((s.log (.forwarded c val)).goto c .selecting) := by
    simp [poolSystem, PoolRun.step, hx, hc]
  exact ⟨_, s.trace, .head hst trivial .refl, rfl⟩

/-- A call at its request is served, when the goroutine is at its `select`. -/
theorem reach_serve {caller : Caller I} {call : PoolCall} (ha : s.actor = .selecting)
    (hc : s.clients c = .inCall caller call .requesting) :
    (poolSystem getKey numTokensPerKey).Reach .any s
      (s.serve numTokensPerKey c caller call) := by
  have haccept : (poolSystem getKey numTokensPerKey).step s (.accept c) =
      some ({ s with actor := .receiving c }.goto c (.inCall caller call .submitting)) := by
    simp [poolSystem, PoolRun.step, hx, ha, hc]
  refine .head haccept trivial ?_
  have hsubmit : (poolSystem getKey numTokensPerKey).step
      ({ s with actor := .receiving c }.goto c (.inCall caller call .submitting)) (.submit c) =
      some ({ s with actor := .serving c }.goto c (.inCall caller call .awaiting)) := by
    simp [poolSystem, PoolRun.step, PoolRun.goto, hx]
  refine .head hsubmit trivial ?_
  have hserve : (poolSystem getKey numTokensPerKey).step
      ({ s with actor := .serving c }.goto c (.inCall caller call .awaiting)) .serve =
      some (s.serve numTokensPerKey c caller call) := by
    cases call <;> simp [poolSystem, PoolRun.step, PoolRun.goto, PoolRun.serve, PoolRun.log, hx]
  exact .head hserve trivial .refl

theorem canForward_requesting {caller : Caller I} {call : PoolCall} (ha : s.actor = .selecting)
    (hc : s.clients c = .inCall caller call .requesting)
    (h : CanForward getKey numTokensPerKey (s.serve numTokensPerKey c caller call) c val) :
    CanForward getKey numTokensPerKey s c val := by
  obtain ⟨t, tr, hr, htr⟩ := h
  exact ⟨t, tr, .trans (reach_serve hx ha hc) hr, htr⟩

/-- After a tick there is a token. -/
theorem canForward_consume (hn : 0 < numTokensPerKey) (ha : s.actor = .selecting)
    (hc : s.clients c = .inCall (.pipeline val key) (.consume key) .requesting) :
    CanForward getKey numTokensPerKey s c val := by
  have htick : (poolSystem getKey numTokensPerKey).step s .tick = some s.tick := by
    simp [poolSystem, PoolRun.step, hx, ha]
  refine .head htick (canForward_requesting hx ha hc (canForward_sending hx ?_))
  have htoken : 0 ≤ doConsume numTokensPerKey s.tick.tokensMap key := by
    simp only [doConsume, PoolRun.tick, Option.getD_none]
    omega
  simp [PoolRun.serve, htoken, Caller.consumed]

/-- A listener that is closed is left, and one that is not is closed by a tick. -/
theorem canForward_listening (hn : 0 < numTokensPerKey) (ha : s.actor = .selecting)
    {call : PoolCall} {listener : Nat}
    (hc : s.clients c = .inCall (.pipeline val key) call (.listening listener))
    (hl : listener ∈ s.listeners ∨ listener ∈ s.closed) :
    CanForward getKey numTokensPerKey s c val := by
  have htick : (poolSystem getKey numTokensPerKey).step s .tick = some s.tick := by
    simp [poolSystem, PoolRun.step, hx, ha]
  have hclosed : listener ∈ s.tick.closed := List.mem_append.2 hl
  have hwake : (poolSystem getKey numTokensPerKey).step s.tick (.wake c) =
      some (s.tick.goto c (.inCall (.pipeline val key) (.consume key) .requesting)) := by
    have hc' : s.tick.clients c = .inCall (.pipeline val key) call (.listening listener) := hc
    have hx' : s.tick.exited = none := hx
    simp [poolSystem, PoolRun.step, hx', hc', hclosed, Caller.refreshed]
  exact .head htick (.head hwake (canForward_consume hx hn ha (PoolRun.goto_clients_self ..)))

/-- The goroutine is at its `select`: the client is at a request, waits for its listener, or is
at its send. -/
theorem canForward_selecting (hn : 0 < numTokensPerKey) (hs : Served s) (hr : Relayed getKey s)
    (ha : s.actor = .selecting) (hhand : (s.clients c).inHand = some val) :
    CanForward getKey numTokensPerKey s c val := by
  have hagree := hs.agree c
  have hhears := hs.hears c
  have halive := hs.alive c
  have hrelays := hr.relays c
  rw [ha] at hagree
  cases hc : s.clients c with
  | idle | selecting | returned =>
    rw [hc] at hhand
    cases hhand
  | sending val' =>
    rw [hc] at hhand
    cases hhand
    exact canForward_sending hx hc
  | fatal val' =>
    rw [hc, ClientPC.Alive, hx] at halive
    cases halive
  | inCall caller call pc =>
    rw [hc] at hhand hagree hhears hrelays
    cases caller with
    | direct => cases hhand
    | pipeline val' key =>
      cases hhand
      cases pc with
      | submitting | awaiting => cases hagree
      | listening listener => exact canForward_listening hx hn ha hc hhears
      | requesting =>
        cases call with
        | consume key' =>
          cases hrelays.2.2 key' rfl
          exact canForward_consume hx hn ha hc
        | waitForRefresh =>
          have hwaits : (s.serve numTokensPerKey c (.pipeline val key) .waitForRefresh).clients c =
              .inCall (.pipeline val key) .waitForRefresh (.listening s.nextListener) :=
            PoolRun.goto_clients_self ..
          refine canForward_requesting hx ha hc (canForward_listening hx hn rfl hwaits (Or.inl ?_))
          exact List.mem_append_right _ (List.mem_singleton_self _)

/-- The request that is being run is run first. -/
theorem canForward_serving (hn : 0 < numTokensPerKey) (hs : Served s) (hr : Relayed getKey s)
    {c' : Nat} (ha : s.actor = .serving c') (hhand : (s.clients c).inHand = some val) :
    CanForward getKey numTokensPerKey s c val := by
  obtain ⟨caller, call, hc'⟩ := ClientPC.eq_of_awaiting (by rw [hs.agree c', ha]; exact if_pos rfl)
  have hserve : (poolSystem getKey numTokensPerKey).step s .serve =
      some (s.serve numTokensPerKey c' caller call) := by
    simp [poolSystem, PoolRun.step, hx, ha, hc']
  have hmove : PoolRun.Move getKey numTokensPerKey s (s.serve numTokensPerKey c' caller call) :=
    .served ha hc'
  refine .head hserve (canForward_selecting ?_ hn (hs.move hmove) (hr.move hmove) ?_ ?_)
  · cases call <;> exact hx
  · cases call <;> rfl
  · rw [← hhand]
    cases call with
    | consume key =>
      refine PoolRun.inHand_goto ?_
      generalize decide (0 ≤ doConsume numTokensPerKey s.tokensMap key) = ok
      refine Eq.trans ?_ (congrArg ClientPC.inHand hc').symm
      cases caller <;> cases ok <;> rfl
    | waitForRefresh =>
      refine PoolRun.inHand_goto (Eq.trans ?_ (congrArg ClientPC.inHand hc').symm)
      cases caller <;> rfl

theorem canForward_receiving (hn : 0 < numTokensPerKey) (hs : Served s) (hr : Relayed getKey s)
    {c' : Nat} (ha : s.actor = .receiving c') (hhand : (s.clients c).inHand = some val) :
    CanForward getKey numTokensPerKey s c val := by
  obtain ⟨caller, call, hc'⟩ :=
    ClientPC.eq_of_submitting (by rw [hs.agree c', ha]; exact if_pos rfl)
  have hsubmit : (poolSystem getKey numTokensPerKey).step s (.submit c') =
      some ({ s with actor := .serving c' }.goto c' (.inCall caller call .awaiting)) := by
    simp [poolSystem, PoolRun.step, hx, ha, hc']
  have hmove : PoolRun.Move getKey numTokensPerKey s
      ({ s with actor := .serving c' }.goto c' (.inCall caller call .awaiting)) := .submitted ha hc'
  refine .head hsubmit (canForward_serving hx hn (hs.move hmove) (hr.move hmove) rfl ?_)
  rw [← hhand]
  refine PoolRun.inHand_goto (Eq.trans ?_ (congrArg ClientPC.inHand hc').symm)
  cases caller <;> rfl

end Progress

theorem relayed (h : (poolSystem getKey numTokensPerKey).Reachable .any s) : Relayed getKey s :=
  h.invariant Relayed.start fun _ _ _ hs _ hst => hs.move (PoolRun.step_move hst)

/-- While the pool runs, and a key has tokens, an item in hand can be passed on. -/
theorem can_forward (h : (poolSystem getKey numTokensPerKey).Reachable .any s)
    (hn : 0 < numTokensPerKey) (hx : s.exited = none) (ha : s.actor ≠ .closed)
    (hhand : (s.clients c).inHand = some val) : CanForward getKey numTokensPerKey s c val := by
  have hs := served h
  have hr := relayed h
  cases hactor : s.actor with
  | selecting => exact canForward_selecting hx hn hs hr hactor hhand
  | receiving c' => exact canForward_receiving hx hn hs hr hactor hhand
  | serving c' => exact canForward_serving hx hn hs hr hactor hhand
  | closed => exact absurd hactor ha

/-! ## The pool and its pipelines -/

/-- In each epoch the first `numTokensPerKey` calls of `Consume` for a key succeed; a listener
is closed once, by the tick that ends its epoch; and a pipeline passes on what it takes, in
order, each item after a token for its key. -/
structure TokenPoolSound (getKey : Nat → I → Except String String) (numTokensPerKey : Nat)
    (s : PoolRun I) : Prop where
  tokens : ∀ epoch key, PoolRun.numGrants epoch key s.trace =
    min (PoolRun.numConsumes epoch key s.trace) numTokensPerKey
  listeners : ∀ epoch listener, .registered epoch listener ∈ s.trace → ∀ epoch',
    PoolRun.numCloses epoch' listener s.trace = if epoch' = epoch ∧ epoch < s.epoch then 1 else 0
  order : ∀ c, taken c s.trace = (s.clients c).inHand.toList ++ passed c s.trace
  granted : ∀ later c val earlier, s.trace = later ++ .forwarded c val :: earlier →
    Granted getKey c val earlier
  progress : 0 < numTokensPerKey → s.exited = none → s.actor ≠ .closed → ∀ c val,
    (s.clients c).inHand = some val → CanForward getKey numTokensPerKey s c val

theorem token_pool_sound (getKey : Nat → I → Except String String) (numTokensPerKey : Nat)
    (s : PoolRun I) (h : (poolSystem getKey numTokensPerKey).Reachable .any s) :
    TokenPoolSound getKey numTokensPerKey s where
  tokens := (PoolRun.spent h).granted
  listeners := (PoolRun.heard h).closes
  order := (relayed h).order
  granted := (relayed h).granted
  progress := fun hn hx ha _ _ hhand => can_forward h hn hx ha hhand

/-- `GlobalKeyFunc`. -/
def globalKeyFunc (_ : I) : Except String String := .ok "_"

/-- Two pipelines share one token: the second one waits for the tick. -/
theorem token_pool_sound_shared :
    ∃ s, (poolSystem (I := Nat) (fun _ => globalKeyFunc) 1).Reachable .any s ∧
      (passed 0 s.trace = [10] ∧ passed 1 s.trace = [20] ∧ s.epoch = 1) ∧
      TokenPoolSound (fun _ => globalKeyFunc) 1 s := by
  obtain ⟨s, hr, hp⟩ := System.exists_of_replay (poolSystem (I := Nat) (fun _ => globalKeyFunc) 1)
    .any (fun s => passed 0 s.trace = [10] ∧ passed 1 s.trace = [20] ∧ s.epoch = 1)
    [.newPipeline 0, .newPipeline 1, .take 0 10, .take 1 20, .accept 0, .submit 0, .serve, .accept 1,
      .submit 1, .serve, .forward 0, .accept 1, .submit 1, .serve, .tick, .wake 1, .accept 1,
      .submit 1, .serve, .forward 1] (by decide)
  exact ⟨s, hr, of_decide_eq_true hp, token_pool_sound _ 1 s hr⟩

/-! ### Items that are not passed on -/

/-- A pool without tokens passes nothing on. -/
theorem not_canForward_of_zero (h : (poolSystem getKey 0).Reachable .any s) :
    ¬CanForward getKey 0 s c val := by
  rintro ⟨t, tr, hr, htr⟩
  have ht : (poolSystem getKey 0).Reachable .any t := .trans h hr
  obtain ⟨key, epoch, since, earlier, hsince, -, -, hmem⟩ := (relayed ht).granted [] c val tr htr
  have hgrants := (PoolRun.spent ht).granted epoch key
  rw [Nat.min_zero, PoolRun.numGrants, List.countP_eq_zero, htr, hsince] at hgrants
  refine hgrants (.consumed epoch c key true) ?_ (by simp [PoolEvent.isGrant])
  exact List.mem_cons_of_mem _ (List.mem_append_left _ hmem)

/-- Pipeline 1 waits for the tick with an item, and pipeline 0 is ready for one. -/
structure Starving (val : I) (s : PoolRun I) : Prop where
  running : s.exited = none
  actor : s.actor = .selecting
  ready : s.clients 0 = .selecting
  waits : ∃ listener ∈ s.listeners,
    s.clients 1 = .inCall (.pipeline val "_") .waitForRefresh (.listening listener)

/-- With one token in each epoch, pipeline 0 can get it, and pipeline 1 asks in vain. -/
theorem Starving.next (h : Starving val s) (other : I) : ∃ t,
    (poolSystem (fun _ => globalKeyFunc) 1).Reach .any s t ∧ Starving val t ∧
      t.epoch = s.epoch + 1 ∧ t.trace = .registered (s.epoch + 1) s.nextListener ::
        .consumed (s.epoch + 1) 1 "_" false :: .forwarded 0 other ::
        .consumed (s.epoch + 1) 0 "_" true :: .took 0 other ::
        (s.listeners.map (.closed s.epoch) ++ s.trace) := by
  obtain ⟨listener, hmem, hwaits⟩ := h.waits
  have hx := h.running
  let s₁ : PoolRun I := (s.tick.log (.took 0 other)).goto 0
    (.inCall (.pipeline other "_") (.consume "_") .requesting)
  let s₂ := s₁.serve 1 0 (.pipeline other "_") (.consume "_")
  let s₃ := (s₂.log (.forwarded 0 other)).goto 0 .selecting
  let s₄ := s₃.goto 1 (.inCall (.pipeline val "_") (.consume "_") .requesting)
  let s₅ := s₄.serve 1 1 (.pipeline val "_") (.consume "_")
  let s₆ := s₅.serve 1 1 (.pipeline val "_") .waitForRefresh
  let M := poolSystem (I := I) (fun _ => globalKeyFunc) 1
  have htick : M.step s .tick = some s.tick := by
    simp [M, poolSystem, PoolRun.step, hx, h.actor]
  have htake : M.step s.tick (.take 0 other) = some s₁ := by
    simp [M, s₁, poolSystem, PoolRun.step, PoolRun.tick, hx, h.ready, globalKeyFunc]
  have hfirst : M.Reach .any s₁ s₂ :=
    reach_serve (s := s₁) hx h.actor (PoolRun.goto_clients_self ..)
  have hsending : s₂.clients 0 = .sending other := PoolRun.goto_clients_self ..
  have hforward : M.step s₂ (.forward 0) = some s₃ := by
    have hx₂ : s₂.exited = none := hx
    simp [M, s₃, poolSystem, PoolRun.step, hx₂, hsending]
  have hwake : M.step s₃ (.wake 1) = some s₄ := by
    have hx₃ : s₃.exited = none := hx
    have hclosed : listener ∈ s₃.closed := List.mem_append_left _ hmem
    have hwaits₃ : s₃.clients 1 = .inCall (.pipeline val "_") .waitForRefresh
        (.listening listener) := hwaits
    simp [M, s₄, poolSystem, PoolRun.step, hx₃, hwaits₃, hclosed, Caller.refreshed]
  have hsecond : M.Reach .any s₄ s₅ :=
    reach_serve (s := s₄) hx rfl (PoolRun.goto_clients_self ..)
  have hthird : M.Reach .any s₅ s₆ :=
    reach_serve (s := s₅) hx rfl (PoolRun.goto_clients_self ..)
  refine ⟨s₆, ?_, ⟨hx, rfl, rfl, s.nextListener, List.mem_singleton_self _, rfl⟩, rfl, rfl⟩
  exact .head htick trivial (.head htake trivial (.trans hfirst (.head hforward trivial
    (.head hwake trivial (.trans hsecond hthird)))))

/-- In every epoch the second pipeline can have asked in vain. -/
theorem exists_starving (n : Nat) :
    ∃ s, (poolSystem (I := Nat) (fun _ => globalKeyFunc) 1).Reachable .any s ∧ Starving 20 s ∧
      s.epoch = n ∧ taken 1 s.trace = [20] ∧ passed 1 s.trace = [] ∧
      ∀ epoch ≤ n, .consumed epoch 1 "_" false ∈ s.trace := by
  induction n with
  | zero =>
    refine ⟨_, System.reach_of_replay [.newPipeline 0, .newPipeline 1, .take 1 20, .take 0 10,
      .accept 0, .submit 0, .serve, .forward 0, .accept 1, .submit 1, .serve, .accept 1,
      .submit 1, .serve] rfl, ⟨rfl, rfl, rfl, 0, by decide, rfl⟩, rfl, rfl, rfl, ?_⟩
    intro epoch hle
    cases Nat.le_zero.1 hle
    exact .tail _ (.head _)
  | succ n ih =>
    obtain ⟨s, hr, hstarving, hepoch, htaken, hpassed, hasked⟩ := ih
    obtain ⟨t, hst, hstarving', hepoch', htrace⟩ := hstarving.next 10
    refine ⟨t, .trans hr hst, hstarving', hepoch'.trans (congrArg (· + 1) hepoch), ?_, ?_, ?_⟩
    · rw [htrace, ← htaken]
      exact taken_closes ..
    · rw [htrace, ← hpassed]
      exact passed_closes ..
    · intro epoch hle
      rw [htrace]
      rcases Nat.le_succ_iff.1 hle with hle | rfl
      · simp [hasked epoch hle]
      · simp [hepoch]

/-- Without tokens an item can never be passed on; and with one token in each epoch a pipeline can
ask in vain in as many epochs as there are. -/
theorem not_always_forwarded :
    (∃ s, (poolSystem (I := Nat) (fun _ => globalKeyFunc) 0).Reachable .any s ∧ s.exited = none ∧
      s.actor = .selecting ∧ (s.clients 0).inHand = some 10 ∧
      ¬CanForward (fun _ => globalKeyFunc) 0 s 0 10) ∧
    ∀ n, ∃ s, (poolSystem (I := Nat) (fun _ => globalKeyFunc) 1).Reachable .any s ∧
      s.exited = none ∧ s.actor = .selecting ∧ s.epoch = n ∧ taken 1 s.trace = [20] ∧
      passed 1 s.trace = [] ∧ ∀ epoch ≤ n, .consumed epoch 1 "_" false ∈ s.trace := by
  constructor
  · obtain ⟨s, hr, hp⟩ := System.exists_of_replay
      (poolSystem (I := Nat) (fun _ => globalKeyFunc) 0) .any
      (fun s => s.exited = none ∧ s.actor = .selecting ∧ (s.clients 0).inHand = some 10)
      [.newPipeline 0, .take 0 10] (by decide)
    obtain ⟨hx, ha, hhand⟩ := of_decide_eq_true hp
    exact ⟨s, hr, hx, ha, hhand, not_canForward_of_zero hr⟩
  · intro n
    obtain ⟨s, hr, hstarving, hrest⟩ := exists_starving n
    exact ⟨s, hr, hstarving.running, hstarving.actor, hrest⟩

end CloudPing.Ratelimit.TokenPool
