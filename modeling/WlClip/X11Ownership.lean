import WlClip.X11Clipboard

/-!
# Who owns a selection

Copies take a selection from one another. The one that it is taken from is told, so of the copies of
a selection that wait for events all but the owner have word in their queues that they are replaced.
A copy that is not to serve once only ends because it is replaced, because its connection is lost or
because it could not go to the background, and when it has ended it owns nothing.
-/

open ScriptedProgram ScriptedProgram.Prog Interleaving

namespace WlClip

def Action.Introduces : Action → Prop
  | .call c _ => c.introduces = true
  | _ => False

theorem Action.Introduces.aside {a : Action} (h : a.Introduces) : a.Aside := by
  cases a with
  | call c r => exact X11.introduces_aside c r h
  | _ => cases h

/-- Asks for the ownership of a selection. -/
def Action.claims : Action → List (Window × Atom)
  | .xRequest (.setSelectionOwner v selection) => [(v, selection)]
  | _ => []

/-- Gives up what the client owns: it has taken the word that it lost it, or destroys its window. -/
def Action.Yields : Action → Prop
  | .call .xWaitForEvent (.xWaitForEvent (some .selectionClear)) => True
  | .call .xPollForEvent (.xPollForEvent (some .selectionClear)) => True
  | .xRequest (.destroyWindow _) => True
  | _ => False

theorem Action.Aside.claims {a : Action} (h : a.Aside) : a.claims = [] := by
  cases a with
  | xRequest r => cases h
  | _ => rfl

theorem Action.Aside.not_yields {a : Action} (h : a.Aside) : ¬ a.Yields := by
  unfold Action.Yields
  split
  · simp [Action.Aside, Call.takes] at h
  · simp [Action.Aside, Call.takes] at h
  · cases h
  · exact not_false

namespace X11

/-! ## What a step does to the owners -/

/-- What a step of the client makes of the owners, and of the word to those that were replaced. -/
inductive Change (u : Window) (s s' : XServer) (b : Action) : Prop
  | kept (hclaims : b.claims = []) (howner : s'.owner = s.owner)
      (hqueue : ∀ v, .selectionClear ∈ s'.queue v ↔ .selectionClear ∈ s.queue v)
  | told (hclaims : b.claims = []) (howner : s'.owner = s.owner) (hyields : b.Yields)
      (htaken : .selectionClear ∈ s.queue u) (hqueue : ∀ v, v ≠ u → s'.queue v = s.queue v)
  | claimed {selection : Atom} (hclaims : b.claims = [(u, selection)]) (hserver : s' = s.own u selection)
  | left (hclaims : b.claims = []) (hyields : b.Yields) (hserver : s' = s.destroy u)

section

variable {t : AtomTable} {peers : Window → Peer} {s s' : System} {u v : Window} {b : Action}
  {server : XServer} {e : XEvent}

theorem cleared_enqueue (he : e ≠ .selectionClear) :
    .selectionClear ∈ (server.enqueue u e).queue v ↔ .selectionClear ∈ server.queue v := by
  by_cases hv : v = u
  · subst hv
    rw [XServer.enqueue_queue_self, List.mem_append, List.mem_singleton]
    exact or_iff_left he.symm
  · rw [XServer.enqueue_queue_of_ne hv]

theorem cleared_dequeue (h : server.Delivers u e) (he : e ≠ .selectionClear) :
    .selectionClear ∈ (server.dequeue u e).queue v ↔ .selectionClear ∈ server.queue v := by
  by_cases hother : e = .other
  · rw [hother, XServer.dequeue_other]
  by_cases hv : v = u
  · subst hv
    rw [h.queue hother, List.mem_cons]
    exact (or_iff_right he.symm).symm
  · rw [XServer.dequeue_queue_of_ne hv]

/-- An event that is taken is the word that the selection is lost, or leaves that where it is. -/
theorem change_taken (hdelivers : server.Delivers u e) (hclaims : b.claims = [])
    (hyields : e = .selectionClear → b.Yields) : Change u server (server.dequeue u e) b := by
  by_cases he : e = .selectionClear
  · subst he
    have hqueue := hdelivers.queue (by simp)
    refine .told hclaims XServer.dequeue_owner (hyields rfl) ?_ fun v hv =>
      XServer.dequeue_queue_of_ne hv
    rw [hqueue]
    exact List.mem_cons_self
  · exact .kept hclaims XServer.dequeue_owner fun v => cleared_dequeue hdelivers he

theorem change_reply {r : XRequest} (h : r.Replies) : Change u server (server.request r) (.xRequest r) := by
  cases r with
  | changeProperty v name type format data =>
      exact .kept rfl XServer.store_owner fun v => by rw [XServer.request, XServer.store_queue]
  | sendNotify v n => exact .kept rfl rfl fun v => cleared_enqueue (by simp)
  | _ => cases h

theorem change_convert {selection target property : Atom} : Change u server
    (server.convert u selection target property)
    (.xRequest (.convertSelection u selection target property)) := by
  unfold XServer.convert
  split
  · exact .kept rfl rfl fun v => cleared_enqueue (by simp)
  · exact .kept rfl rfl fun v => cleared_enqueue (by simp)

theorem change_of_step (h : Steps t peers s (u, b) s') : Change u s.1 s'.1 b := by
  cases h with
  | @step server todo _ _ rest hallows hstep =>
  generalize peers u = peer at hstep
  generalize todo u = before at hstep
  cases hstep with
  | aside h =>
      have hafter : (XServer.environment t).after server u b = server := h.after server u
      rw [hafter]
      exact .kept h.claims rfl fun v => Iff.rfl
  | event => exact change_taken (hallows _ rfl) rfl fun he => by rw [he]; trivial
  | reply h => exact change_reply h
  | own => exact .claimed rfl rfl
  | destroy => exact .left rfl trivial rfl
  | convert => exact change_convert
  | poll => exact change_taken (hallows _ rfl) rfl fun he => by rw [he]; trivial
  | read => exact .kept rfl rfl fun v => Iff.rfl

end

/-! ## Ownership along a run -/

/-- The window owns the selection, or has word in its queue that it does not. -/
def Standing (v : Window) (selection : Atom) (s : XServer) : Prop :=
  s.owner selection = some v ∨ .selectionClear ∈ s.queue v

/-- The window owns nothing. -/
def Gone (v : Window) (s : XServer) : Prop := ∀ selection, s.owner selection ≠ some v

/-- Another client has claimed what the window had claimed. -/
def Replaced (log : List (Window × Action)) (v : Window) (selection : Atom) : Prop :=
  ∃ before after u, log = before ++ (u, .xRequest (.setSelectionOwner u selection)) :: after ∧
    u ≠ v ∧ (v, .xRequest (.setSelectionOwner v selection)) ∈ before

/-- The window was the last that claimed the selection. -/
def Latest (log : List (Window × Action)) (v : Window) (selection : Atom) : Prop :=
  ∃ before after, log = before ++ (v, .xRequest (.setSelectionOwner v selection)) :: after ∧
    ∀ x ∈ after, ∀ u, (u, selection) ∉ x.2.claims

/-- What the log says of the owners, and of those that are told that they are owners no more. -/
structure Recorded (log : List (Window × Action)) (s : XServer) : Prop where
  owner : ∀ selection v, s.owner selection = some v → Latest log v selection
  cleared : ∀ v, .selectionClear ∈ s.queue v → ∃ selection, Replaced log v selection

section

variable {t : AtomTable} {peers : Window → Peer} {s s' : System} {u v w : Window} {b : Action}
  {server server' : XServer} {selection : Atom} {log log' : List (Window × Action)}

theorem Replaced.append (h : Replaced log v selection) : Replaced (log ++ log') v selection := by
  obtain ⟨before, after, u, rfl, hu, hv⟩ := h
  exact ⟨before, after ++ log', u, by simp, hu, hv⟩

theorem Latest.mem (h : Latest log v selection) :
    (v, .xRequest (.setSelectionOwner v selection)) ∈ log := by
  obtain ⟨before, after, rfl, -⟩ := h
  exact List.mem_append_right _ List.mem_cons_self

theorem Latest.append (h : Latest log v selection) (hb : ∀ w, (w, selection) ∉ b.claims) :
    Latest (log ++ [(u, b)]) v selection := by
  obtain ⟨before, after, rfl, hafter⟩ := h
  refine ⟨before, after ++ [(u, b)], by simp, List.forall_mem_append.mpr ⟨hafter, ?_⟩⟩
  exact List.forall_mem_singleton.mpr hb

theorem claims_eq {a : Action} {v : Window} (h : a.claims = [(v, selection)]) :
    a = .xRequest (.setSelectionOwner v selection) := by
  unfold Action.claims at h
  split at h
  · cases h
    rfl
  · cases h

/-- The word that is sent when a selection changes hands. -/
theorem own_cleared : .selectionClear ∈ (server.own u selection).queue v ↔
    .selectionClear ∈ server.queue v ∨ server.owner selection = some v ∧ v ≠ u := by
  unfold XServer.own
  dsimp only
  rcases howner : server.owner selection with _ | o
  · simp
  · by_cases ho : o = u
    · subst ho
      simp only [if_true, Option.some.injEq]
      exact ⟨.inl, fun h => h.resolve_right fun h => h.2 h.1.symm⟩
    · dsimp only
      rw [if_neg ho]
      by_cases hv : v = o
      · subst hv
        rw [XServer.enqueue_queue_self]
        simp [ho]
      · rw [XServer.enqueue_queue_of_ne hv]
        simp [Ne.symm hv]

theorem Standing.change (h : Standing v selection server) (hchange : Change u server server' b)
    (hu : u = v → ¬ b.Yields) : Standing v selection server' := by
  cases hchange with
  | kept _ howner hqueue => exact h.imp (fun h => by rw [howner, h]) (hqueue v).mpr
  | told _ howner hyields _ hqueue =>
      have hne : v ≠ u := fun heq => hu heq.symm hyields
      exact h.imp (fun h => by rw [howner, h]) fun h => by rwa [hqueue v hne]
  | @claimed selection' _ hserver =>
      subst hserver
      rcases h with h | h
      · by_cases hsel : selection = selection'
        · subst hsel
          by_cases hv : v = u
          · subst hv
            exact .inl (by rw [XServer.own_owner, if_pos rfl])
          · exact .inr (own_cleared.mpr (.inr ⟨h, hv⟩))
        · exact .inl (by rw [XServer.own_owner, if_neg hsel, h])
      · exact .inr (own_cleared.mpr (.inl h))
  | left _ hyields hserver =>
      subst hserver
      have hne : v ≠ u := fun heq => hu heq.symm hyields
      refine h.imp (fun h => ?_) fun h => by rwa [XServer.destroy_queue_of_ne hne]
      change (if server.owner selection = some u then none else server.owner selection) = some v
      rw [h, if_neg fun heq => hne (Option.some.inj heq)]

theorem Gone.change (h : Gone v server) (hchange : Change u server server' b)
    (hu : u = v → b.claims = []) : Gone v server' := by
  intro selection
  cases hchange with
  | kept _ howner => rw [howner]; exact h selection
  | told _ howner => rw [howner]; exact h selection
  | @claimed selection' hclaims hserver =>
      have hne : u ≠ v := by
        rintro rfl
        rw [hu rfl] at hclaims
        cases hclaims
      rw [hserver, XServer.own_owner]
      split
      · exact fun heq => hne (Option.some.inj heq)
      · exact h selection
  | left _ _ hserver =>
      rw [hserver]
      exact fun heq => h selection (XServer.destroy_owner heq)

theorem gone_destroy : Gone v (server.destroy v) := by
  intro selection heq
  have howner : (if server.owner selection = some v then none else server.owner selection) = some v :=
    heq
  split_ifs at howner with h
  exact h howner

theorem Recorded.change (h : Recorded log server) (hchange : Change u server server' b) :
    Recorded (log ++ [(u, b)]) server' := by
  have hkept : b.claims = [] → ∀ selection v, server.owner selection = some v →
      Latest (log ++ [(u, b)]) v selection := fun hclaims selection v hv =>
    (h.owner selection v hv).append fun w => by rw [hclaims]; exact List.not_mem_nil
  have htold : ∀ v, .selectionClear ∈ server.queue v →
      ∃ selection, Replaced (log ++ [(u, b)]) v selection := fun v hv =>
    (h.cleared v hv).imp fun _ => Replaced.append
  cases hchange with
  | kept hclaims howner hqueue =>
      exact ⟨fun selection v hv => hkept hclaims selection v (howner ▸ hv), fun v hv =>
        htold v ((hqueue v).mp hv)⟩
  | told hclaims howner _ htaken hqueue =>
      refine ⟨fun selection v hv => hkept hclaims selection v (howner ▸ hv), fun v hv => ?_⟩
      by_cases hne : v = u
      · exact htold v (hne ▸ htaken)
      · exact htold v (hqueue v hne ▸ hv)
  | @claimed selection' hclaims hserver =>
      obtain rfl := claims_eq hclaims
      subst hserver
      constructor
      · intro selection v hv
        rw [XServer.own_owner] at hv
        split_ifs at hv with hsel
        · obtain rfl := Option.some.inj hv
          rw [hsel]
          exact ⟨log, [], rfl, List.forall_mem_nil _⟩
        · refine (h.owner selection v hv).append fun w hmem => hsel ?_
          exact (Prod.ext_iff.mp (List.mem_singleton.mp hmem)).2
      · intro v hv
        rcases own_cleared.mp hv with hv | ⟨hv, hne⟩
        · exact htold v hv
        · exact ⟨selection', log, [], u, rfl, hne.symm, (h.owner selection' v hv).mem⟩
  | left hclaims _ hserver =>
      subst hserver
      refine ⟨fun selection v hv => hkept hclaims selection v (XServer.destroy_owner hv), fun v hv => ?_⟩
      by_cases hne : v = u
      · rw [hne, XServer.destroy_queue_self] at hv
        cases hv
      · rw [XServer.destroy_queue_of_ne hne] at hv
        exact htold v hv

theorem recorded_path (h : Path (Steps t peers) (.initial, fun _ => []) log s) : Recorded log s.1 := by
  have hnil : Recorded [] XServer.initial := by
    constructor
    · intro selection v h
      cases h
    · intro v h
      cases h
  refine h.history (I := fun log s => Recorded log s.1) hnil ?_
  rintro log s ⟨u, b⟩ s' hrecorded hstep
  exact hrecorded.change (change_of_step hstep)

end

end X11

/-! ## The course of a copy -/

/-- The copy that has claimed the selection finds that it cannot go on with it. -/
def Action.Ends (w : Window) (selection : Atom) : Action → Prop
  | .call (.xGetSelectionOwner s) (.xGetSelectionOwner r) => s = selection ∧ r ≠ some w
  | .call .fork (.fork pid) => pid < 0
  | .call .xWaitForEvent (.xWaitForEvent r) => r = none ∨ r = some .selectionClear
  | _ => False

/-- The payload is stored for a client. -/
def Action.Gives (data : CopyData) : Action → Prop
  | .xRequest (.changeProperty _ _ _ 8 bytes) => bytes = X11.counted data.bytes
  | _ => False

namespace X11

/-- A reason to end. -/
def Stops (w : Window) (selection : Atom) (data : CopyData) (oneshot : Bool) (log : List Action) : Prop :=
  (oneshot = true ∧ ∃ b ∈ log, b.Gives data) ∨
    ∃ before b after, log = before ++ b :: after ∧ (∀ c ∈ before, ¬ c.Yields) ∧ b.Ends w selection

/-- What a copy does that has claimed the selection: it gives up nothing or, if it has returned, has
had a reason for that and has destroyed its window. -/
inductive Claimed (w : Window) (selection : Atom) (data : CopyData) (oneshot : Bool) :
    Bool → List Action → Prop
  | halted {log : List Action} (h : ∀ b ∈ log, ¬ b.Yields) : Claimed w selection data oneshot false log
  | returned {log after : List Action} (h : Stops w selection data oneshot log)
      (hafter : ∀ b ∈ after, b.Aside) :
      Claimed w selection data oneshot true (log ++ .xRequest (.destroyWindow w) :: after)

/-- What a copy does. -/
inductive Life (data : CopyData) (oneshot returned : Bool) : List Action → Prop
  | unclaimed {log : List Action} (h : ∀ b ∈ log, b.Introduces) : Life data oneshot returned log
  | claimed {w : Window} {selection : Atom} {before log : List Action}
      (hbefore : ∀ b ∈ before, b.Introduces) (h : Claimed w selection data oneshot returned log) :
      Life data oneshot returned (before ++ .xRequest (.setSelectionOwner w selection) :: log)

/-- What a copy does among other things that are of no concern to the server. -/
inductive Course (data : CopyData) (oneshot returned : Bool) : List Action → Prop
  | unclaimed {log : List Action} (h : ∀ b ∈ log, b.Aside) : Course data oneshot returned log
  | claimed {w : Window} {selection : Atom} {before log : List Action}
      (h : Claimed w selection data oneshot returned log) :
      Course data oneshot returned (before ++ .xRequest (.setSelectionOwner w selection) :: log)

/-- Since `p` the copy has given up nothing. -/
def Going (p q : Process) : Prop := ∃ log, q.trace = p.trace ++ log ∧ ∀ b ∈ log, ¬ b.Yields

/-- Since `p` the copy has come to have a reason to end. -/
def Over (ctx : CopyContext) (oneshot : Bool) (p q : Process) : Prop :=
  ∃ log, q.trace = p.trace ++ log ∧ Stops ctx.x.window ctx.selatom ctx.data oneshot log

/-- The copy has claimed the selection before `p`. -/
def Came (ctx : CopyContext) (oneshot returned : Bool) (p q : Process) : Prop :=
  ∃ log, q.trace = p.trace ++ log ∧ Claimed ctx.x.window ctx.selatom ctx.data oneshot returned log

def Lived (data : CopyData) (oneshot returned : Bool) (p q : Process) : Prop :=
  ∃ log, q.trace = p.trace ++ log ∧ Life data oneshot returned log

section

variable {ctx : CopyContext} {oneshot returned : Bool} {p q q' : Process}

theorem Going.after (h : Going p q) {log : List Action} {rest : List Reply} (hlog : ∀ b ∈ log, ¬ b.Yields) :
    Going p (q.after log rest) := by
  obtain ⟨log', htrace, hlog'⟩ := h
  refine ⟨log' ++ log, ?_, List.forall_mem_append.mpr ⟨hlog', hlog⟩⟩
  rw [← List.append_assoc, ← htrace]
  rfl

theorem Going.of_aside (h : Going p q) (hlogs : Process.Logs Action.Aside q q') : Going p q' := by
  obtain ⟨log, htrace, hlog⟩ := h
  obtain ⟨log', htrace', -, haside⟩ := hlogs.log
  refine ⟨log ++ log', by rw [htrace', htrace, List.append_assoc], ?_⟩
  exact List.forall_mem_append.mpr ⟨hlog, fun b hb => (haside b hb).not_yields⟩

theorem Going.came (h : Going p q) : Came ctx oneshot false p q := by
  obtain ⟨log, htrace, hlog⟩ := h
  exact ⟨log, htrace, .halted hlog⟩

theorem Going.over (h : Going p q) {b : Action} (hb : b.Ends ctx.x.window ctx.selatom)
    {after : List Action} {rest : List Reply} : Over ctx oneshot p (q.after (b :: after) rest) := by
  obtain ⟨log, htrace, hlog⟩ := h
  refine ⟨log ++ b :: after, ?_, .inr ⟨log, b, after, rfl, hlog, hb⟩⟩
  rw [← List.append_assoc, ← htrace]
  rfl

theorem Over.destroyed (h : Over ctx oneshot p q) :
    Came ctx oneshot true p (q.after [.xRequest (.destroyWindow ctx.x.window)] q.script) := by
  obtain ⟨log, htrace, hstops⟩ := h
  refine ⟨log ++ [.xRequest (.destroyWindow ctx.x.window)], ?_,
    .returned hstops (List.forall_mem_nil _)⟩
  rw [← List.append_assoc, ← htrace]
  rfl

theorem Life.course {data : CopyData} {before log after : List Action} (h : Life data oneshot returned log)
    (hbefore : ∀ b ∈ before, b.Aside) (hafter : ∀ b ∈ after, b.Aside) :
    Course data oneshot returned (before ++ (log ++ after)) := by
  cases h with
  | unclaimed h =>
      refine .unclaimed (List.forall_mem_append.mpr ⟨hbefore, List.forall_mem_append.mpr ⟨?_, hafter⟩⟩)
      exact fun b hb => (h b hb).aside
  | claimed _ h =>
      rw [List.append_assoc, List.cons_append, ← List.append_assoc]
      refine .claimed ?_
      cases h with
      | halted h =>
          exact .halted (List.forall_mem_append.mpr ⟨h, fun b hb => (hafter b hb).not_yields⟩)
      | returned h hend =>
          rw [List.append_assoc, List.cons_append]
          exact .returned h (List.forall_mem_append.mpr ⟨hend, hafter⟩)

theorem not_yields_reply {r : XRequest} (h : r.Replies) : ¬ (Action.xRequest r).Yields := by
  cases r with
  | destroyWindow => cases h
  | _ => exact not_false

/-- Unless it stops at the event, the copy gives up nothing with it. -/
theorem turn_going {e : XEvent} (hstop : stops ctx oneshot e = false) (payload : List UInt8) :
    ∀ b ∈ turn ctx payload e, ¬ b.Yields := by
  refine List.forall_mem_cons.mpr ⟨?_, fun b hb => ?_⟩
  · cases e with
    | selectionClear => cases hstop
    | _ => exact not_false
  · obtain ⟨r, hr, rfl⟩ := List.mem_map.mp hb
    exact not_yields_reply (replies_replies payload e r hr)

theorem paid_gives {e : XEvent} (h : paid ctx e = true) :
    ∃ b ∈ turn ctx (counted ctx.data.bytes) e, b.Gives ctx.data := by
  cases e with
  | selectionRequest req =>
      obtain ⟨hkept, htargets, htimestamp⟩ : Pays ctx req := of_decide_eq_true h
      have hmem : storing ctx (counted ctx.data.bytes) req ∈ reply ctx (counted ctx.data.bytes) req := by
        rw [reply, if_neg hkept]
        exact List.mem_cons_self
      refine ⟨_, List.mem_cons_of_mem _ (List.mem_map_of_mem hmem), ?_⟩
      rw [storing, if_neg htargets, if_neg htimestamp]
      rfl
  | _ => cases h

theorem Going.stopped (h : Going p q) {e : XEvent} (hstop : stops ctx oneshot e = true)
    {rest : List Reply} :
    Over ctx oneshot p (q.after (turn ctx (counted ctx.data.bytes) e) rest) := by
  by_cases hclear : e = .selectionClear
  · subst hclear
    have hends : Action.Ends ctx.x.window ctx.selatom
        (.call .xWaitForEvent (.xWaitForEvent (some .selectionClear))) := Or.inr rfl
    exact h.over hends
  obtain ⟨log, htrace, -⟩ := h
  have hpaid : oneshot = true ∧ paid ctx e = true := by
    cases e with
    | selectionClear => exact absurd rfl hclear
    | _ => simpa [stops] using hstop
  obtain ⟨b, hb, hgives⟩ := paid_gives hpaid.2
  refine ⟨log ++ turn ctx (counted ctx.data.bytes) e, ?_,
    .inl ⟨hpaid.1, b, List.mem_append_right _ hb, hgives⟩⟩
  rw [← List.append_assoc, ← htrace]
  rfl

/-! ## The loop -/

def Serves (ctx : CopyContext) (oneshot : Bool) (p : Process) (s : Serving) (q : Process) : Prop :=
  if s.lost then Over ctx oneshot p q else Going p q

theorem serveRound_course (hcount : ctx.targets.length < 2 ^ 32) (oneshot : Bool) (p : Process)
    (s : Serving) : Triple (Serves ctx oneshot p s) (serveRound ctx oneshot s)
      (fun next q => match next with
        | .inl s' => Serves ctx oneshot p s' q
        | .inr _ => Over ctx oneshot p q)
      fun _ => Going p := by
  obtain ⟨n, lost⟩ := s
  intro q hq
  cases lost with
  | true => exact hq
  | false =>
      have hgoing : Going p q := hq
      rcases next_event q.script with ⟨e, rest, hs⟩ | ⟨rest, hs⟩ | hs
      · rw [serveRound_event hcount n hs]
        by_cases hstop : stops ctx oneshot e = true
        · exact (if_pos hstop).mpr (hgoing.stopped hstop)
        · exact (if_neg hstop).mpr (hgoing.after (turn_going (Bool.eq_false_iff.mpr hstop) _))
      · rw [serveRound_closed n hs]
        have hends : Action.Ends ctx.x.window ctx.selatom
            (.call .xWaitForEvent (.xWaitForEvent none)) := Or.inl rfl
        exact hgoing.over hends
      · rw [serveRound_waiting n hs]
        exact hgoing

theorem serveSelection_course (hcount : ctx.targets.length < 2 ^ 32) (oneshot : Bool) (p : Process) :
    Triple (Going p) (serveSelection ctx oneshot) (fun _ => Over ctx oneshot p) fun _ => Going p := by
  have hloop : Triple (Serves ctx oneshot p ⟨0, false⟩)
      (loop .stuck (fun _ p => p.size) (serveRound ctx oneshot) ⟨0, false⟩)
      (fun _ => Over ctx oneshot p) fun _ => Going p := by
    refine Triple.loop_total (I := Serves ctx oneshot p) (serveRound_shrinks hcount) (fun s => ?_) _
    refine (serveRound_course hcount oneshot p s).conseq (fun _ h => h) ?_ fun _ _ h => h
    rintro (s' | s') q h <;> exact h
  exact Triple.bind hloop fun _ => Triple.pure _ fun _ h => h

end

/-! ## The whole of it -/

section

variable {ctx : CopyContext} {p : Process}

abbrev Comes (ctx : CopyContext) (oneshot : Bool) (p : Process) (P : Process → Prop)
    (prog : Prog Halt Process Bool) : Prop :=
  Triple P prog (fun _ => Came ctx oneshot true p) fun _ => Came ctx oneshot false p

theorem destroy_comes (oneshot : Bool) (p : Process) (ok : Bool) :
    Comes ctx oneshot p (Over ctx oneshot p) (do
      destroy ctx.x
      return ok) := fun _ hq => hq.destroyed

theorem serveAndRelease_comes (hcount : ctx.targets.length < 2 ^ 32) (oneshot : Bool) (p : Process) :
    Comes ctx oneshot p (Going p) (X11Backend.serveAndRelease ctx oneshot) :=
  Triple.bind ((serveSelection_course hcount oneshot p).conseq (fun _ h => h) (fun _ _ h => h)
    fun _ _ h => h.came) fun ok => destroy_comes oneshot p ok

/-- What the copy does when it has made sure that it is the owner. -/
theorem detach_comes (hcount : ctx.targets.length < 2 ^ 32) (oneshot detach : Bool) (p : Process)
    {after : Prog Halt Process Unit} (hafter : Within (Process.Logs Action.Aside) after) :
    Comes ctx oneshot p (Going p) (if detach then do
        let pid ← Process.fork
        if pid < 0 then
          destroy ctx.x
          return false
        else if pid > 0 then
          after
          Prog.halt (.exited 0)
        else X11Backend.serveAndRelease ctx oneshot
      else X11Backend.serveAndRelease ctx oneshot) := by
  have hserve : Comes ctx oneshot p (Going p) (X11Backend.serveAndRelease ctx oneshot) :=
    serveAndRelease_comes hcount oneshot p
  have hfork : Triple (Going p) Process.fork
      (fun pid q => Going p q ∧ (pid < 0 → Over ctx oneshot p q)) fun _ => Came ctx oneshot false p := by
    refine Triple.intro (fun q pid q' hq h => ?_) fun q e q' hq h => ?_
    · obtain ⟨r, rest, -, ha, rfl⟩ := Process.ask_ok h
      cases r with
      | fork pid' =>
          obtain rfl := Option.some.inj ha
          refine ⟨hq.after (by simp [Action.Yields]), fun hpid => ?_⟩
          exact hq.over (show Action.Ends _ _ (.call .fork (.fork pid')) from hpid)
      | _ => cases ha
    · rw [(Process.ask_error h).2]
      exact hq.came
  refine Triple.ite (fun _ => Triple.bind hfork fun pid => ?_) fun _ => hserve
  refine Triple.ite (fun hpid => (destroy_comes oneshot p false).pre fun q h => h.2 hpid) fun _ => ?_
  refine Triple.ite (fun _ => ?_) fun _ => hserve.pre fun q h => h.1
  refine Triple.bind (Q := fun _ => Going p) ?_ fun _ => Triple.halt _ fun q h => h.came
  exact Triple.intro (fun q _ q' hq h => hq.1.of_aside (hafter.of_eq h))
    fun q e q' hq h => (hq.1.of_aside (hafter.of_eq h)).came

/-- Since `p` the copy has claimed the selection and has given up nothing. -/
def Held (ctx : CopyContext) (p q : Process) : Prop :=
  ∃ before p', (∀ b ∈ before, b.Introduces) ∧ p'.trace = p.trace ++ (before ++
    [.xRequest (.setSelectionOwner ctx.x.window ctx.selatom)]) ∧ Going p' q

theorem Came.lived {oneshot returned : Bool} {p' q : Process} {before : List Action}
    (h : Came ctx oneshot returned p' q) (hbefore : ∀ b ∈ before, b.Introduces)
    (htrace : p'.trace = p.trace ++ (before ++
      [.xRequest (.setSelectionOwner ctx.x.window ctx.selatom)])) :
    Lived ctx.data oneshot returned p q := by
  obtain ⟨log, hlog, hclaimed⟩ := h
  refine ⟨_, ?_, .claimed hbefore hclaimed⟩
  rw [hlog, htrace]
  simp

theorem lived_of_logs {data : CopyData} {oneshot returned : Bool} {q : Process}
    (h : Process.Logs Action.Introduces p q) : Lived data oneshot returned p q := by
  obtain ⟨log, htrace, -, hlog⟩ := h.log
  exact ⟨log, htrace, .unclaimed hlog⟩

theorem acquireSelection_lives (display : Text) (sel : Selection) (data : CopyData) (oneshot : Bool)
    (p : Process) :
    Triple (Process.Logs Action.Introduces p) (acquireSelection display sel data)
      (fun r q => match r with
        | some ctx => ctx.data = data ∧ Held ctx p q
        | none => Lived data oneshot true p q)
      fun _ => Lived data oneshot false p := by
  have hlives : ∀ {α : Type} {prog : Prog Halt Process α}, Within (Process.Logs Action.Introduces) prog →
      Triple (Process.Logs Action.Introduces p) prog (fun _ => Process.Logs Action.Introduces p)
        fun _ => Lived data oneshot false p := fun h =>
    (h.keeps fun _ _ hlogs hp => hp.trans hlogs).conseq (fun _ h => h) (fun _ _ h => h)
      fun _ _ h => lived_of_logs h
  refine Triple.ite (fun _ => Triple.pure _ fun q h => lived_of_logs h) fun _ => ?_
  apply Triple.bind (hlives (connect_logs (fun _ _ h => h) display))
  rintro (_ | x)
  · exact Triple.pure _ fun q h => lived_of_logs h
  apply Triple.bind (hlives (buildTargets_logs (fun _ _ h => h) _ _))
  intro targets
  let ctx : CopyContext := ⟨x, targets, selectionAtom x.atoms sel, data⟩
  have hclaim : Triple (Process.Logs Action.Introduces p)
      (Process.xRequest (.setSelectionOwner x.window ctx.selatom)) (fun _ => Held ctx p)
      fun _ => Lived data oneshot false p := by
    intro q hq
    obtain ⟨before, htrace, -, hbefore⟩ := hq.log
    refine ⟨before, _, hbefore, ?_, [], (List.append_nil _).symm, List.forall_mem_nil _⟩
    rw [← List.append_assoc, ← htrace]
  have hsure : Triple (Held ctx p) (Process.xGetSelectionOwner ctx.selatom)
      (fun owner q => Held ctx p q ∧ (owner ≠ some x.window →
        ∃ before p', (∀ b ∈ before, b.Introduces) ∧ p'.trace = p.trace ++ (before ++
          [.xRequest (.setSelectionOwner x.window ctx.selatom)]) ∧ Over ctx oneshot p' q))
      fun _ => Lived data oneshot false p := by
    refine Triple.intro (fun q owner q' hq h => ?_) fun q e q' hq h => ?_
    · obtain ⟨before, p', hbefore, htrace, hgoing⟩ := hq
      obtain ⟨r, rest, -, ha, rfl⟩ := Process.ask_ok h
      cases r with
      | xGetSelectionOwner owner' =>
          obtain rfl := Option.some.inj ha
          refine ⟨⟨before, p', hbefore, htrace, hgoing.after (by simp [Action.Yields])⟩, fun hne => ?_⟩
          have hends : Action.Ends x.window ctx.selatom
              (.call (.xGetSelectionOwner ctx.selatom) (.xGetSelectionOwner owner')) := ⟨rfl, hne⟩
          exact ⟨before, p', hbefore, htrace, hgoing.over hends⟩
      | _ => cases ha
    · obtain ⟨before, p', hbefore, htrace, hgoing⟩ := hq
      rw [(Process.ask_error h).2]
      exact Came.lived hgoing.came hbefore htrace
  refine Triple.bind hclaim fun _ => Triple.bind hsure fun owner => ?_
  refine Triple.ite (fun _ => Triple.pure _ fun q h => ⟨rfl, h.1⟩) fun hne q h => ?_
  obtain ⟨before, p', hbefore, htrace, hover⟩ := h.2 hne
  exact hover.destroyed.lived hbefore htrace

/-- Whatever it is told, a copy has one of these lives. -/
theorem copyAcquireThenDetach_lives (display : Text) (sel : Selection) (data : CopyData)
    (oneshot detach : Bool) {after : Prog Halt Process Unit}
    (hafter : Within (Process.Logs Action.Aside) after) (p : Process) :
    Triple (Process.Logs Action.Introduces p)
      (X11Backend.copyAcquireThenDetach display sel data oneshot detach after)
      (fun _ => Lived data oneshot true p) fun _ => Lived data oneshot false p := by
  have hacquire : Triple (Process.Logs Action.Introduces p) (acquireSelection display sel data)
      (fun r q => match r with
        | some ctx => (ctx.data = data ∧ ctx.targets.length < 2 ^ 32) ∧ Held ctx p q
        | none => Lived data oneshot true p q)
      fun _ => Lived data oneshot false p := by
    have hlives := acquireSelection_lives display sel data oneshot p
    refine Triple.intro (fun q r q' hq h => ?_) fun q e q' hq h => hlives.error h hq
    have hr := hlives.ok h hq
    rcases r with _ | ctx
    · exact hr
    · exact ⟨⟨hr.1, (acquireSelection_advertised h).length_lt⟩, hr.2⟩
  apply Triple.bind hacquire
  rintro (_ | ctx)
  · exact Triple.pure _ fun q h => h
  refine Triple.assume fun hctx => ?_
  obtain ⟨rfl, hcount⟩ := hctx
  rintro q ⟨before, p', hbefore, htrace, hgoing⟩
  have hcomes := detach_comes hcount oneshot detach p' hafter
  exact hcomes.conseq (fun _ h => h) (fun _ _ h => h.lived hbefore htrace)
    (fun _ _ h => h.lived hbefore htrace) q hgoing

end

end X11

namespace CopyCommand

open X11

theorem runX11_lives (common : CommonOptions) (o : CopyOpts) (data : CopyData) (p : Process) :
    Triple (fun q => q = p) (runX11 common o data) (fun _ => Lived data o.oneshot true p)
      fun _ => Lived data o.oneshot false p := by
  have hafter : Within (Process.Logs Action.Aside) (if o.syncWait ∧ !o.foreground then do
      let _ ← waitForWlVisibility common.display common.primary data.mimeTypes data.bytes o.syncTimeoutMs
    else return ()) :=
    Within.ite (Within.bind (watching_aside.wait _ _ _ _ _) fun _ => Within.pure _) (Within.pure _)
  refine Triple.ite (fun _ => Triple.pure _ ?_) fun _ => Triple.bind ?_ fun ok => Triple.pure _ fun _ h => h
  · rintro _ rfl
    exact lived_of_logs (.refl _)
  · refine (copyAcquireThenDetach_lives _ _ data o.oneshot _ hafter p).pre ?_
    rintro _ rfl
    exact .refl _

end CopyCommand

namespace X11

/-! ## Sessions -/

/-- A copy of the selection, and whether it has returned. -/
def Copying (clients : Window → Client) (log : List (Window × Action)) (w : Window) (sel : Selection)
    (data : CopyData) (oneshot returned : Bool) : Prop :=
  ∃ common o p after, clients w = .copy common o data ∧ common.selection = sel ∧ o.oneshot = oneshot ∧
    (∀ a ∈ p.trace, a.Aside) ∧ (∀ a ∈ after, a.Aside) ∧
    logOf w log = (CopyCommand.runX11 common o data p).2.trace ++ after ∧
    (CopyCommand.runX11 common o data p).1.isOk = returned

/-- The copy has claimed its selection and has not returned. -/
def Holding (t : AtomTable) (clients : Window → Client) (log : List (Window × Action)) (w : Window)
    (sel : Selection) : Prop :=
  (∃ data oneshot, Copying clients log w sel data oneshot false) ∧
    (w, .xRequest (.setSelectionOwner w (selectionAtom (atomsOf t.atomOf) sel))) ∈ log

section

variable {t : AtomTable} {clients : Window → Client} {peers : Window → Peer}
  {log log' : List (Window × Action)} {s s' : System} {v w : Window} {selection : Atom}
  {sel : Selection} {data : CopyData} {oneshot returned : Bool}

theorem Copying.course (h : Copying clients log w sel data oneshot returned) :
    Course data oneshot returned (logOf w log) := by
  obtain ⟨common, o, p, after, -, -, rfl, hbefore, hafter, hlog, hreturned⟩ := h
  have hlives := CopyCommand.runX11_lives common o data p
  rcases hrun : CopyCommand.runX11 common o data p with ⟨e | n, q⟩ <;> rw [hrun] at hlog hreturned <;>
    subst hreturned
  · obtain ⟨log', htrace, hlife⟩ := hlives.error hrun rfl
    rw [hlog, htrace, List.append_assoc]
    exact hlife.course hbefore hafter
  · obtain ⟨log', htrace, hlife⟩ := hlives.ok hrun rfl
    rw [hlog, htrace, List.append_assoc]
    exact hlife.course hbefore hafter

/-- A client claims for its own window, and the selection that it copies. -/
theorem claim_own (hpath : Path (Steps t peers) s log s') (his : ∀ v, (clients v).Is t v (peers v))
    (h : (w, .xRequest (.setSelectionOwner v selection)) ∈ log) :
    v = w ∧ ∃ common o data, clients w = .copy common o data ∧
      selection = selectionAtom (atomsOf t.atomOf) common.selection := by
  obtain ⟨s₁, s₂, hstep⟩ := hpath.mem h
  cases hstep with
  | @step server todo _ _ rest _ hstep =>
  generalize hpeer : peers w = peer at hstep
  generalize todo w = before at hstep
  cases hstep with
  | aside h => cases h
  | reply h => cases h
  | own =>
      obtain ⟨common, o, data, hclient, howns⟩ := (his _).owner hpeer
      exact ⟨rfl, common, o, data, hclient, howns.acquired.selatom⟩

theorem Copying.claim_own (h : Copying clients log w sel data oneshot returned)
    (hpath : Path (Steps t peers) s log s') (his : ∀ v, (clients v).Is t v (peers v))
    (hmem : (w, .xRequest (.setSelectionOwner v selection)) ∈ log) :
    v = w ∧ selection = selectionAtom (atomsOf t.atomOf) sel := by
  obtain ⟨rfl, common, o, data', hclient, rfl⟩ := X11.claim_own hpath his hmem
  obtain ⟨common', o', p, after, hclient', rfl, -⟩ := h
  cases hclient.symm.trans hclient'
  exact ⟨rfl, rfl⟩

theorem standing_path (hpath : Path (Steps t peers) s log s') (hlog : ∀ b ∈ logOf w log, ¬ b.Yields)
    (h : Standing w selection s.1) : Standing w selection s'.1 := by
  refine hpath.keeps (C := fun x => x.1 = w → ¬ x.2.Yields) (I := fun s => Standing w selection s.1) ?_
    ?_ h
  · rintro s ⟨u, b⟩ s' hb hstep hs
    exact hs.change (change_of_step hstep) hb
  · rintro ⟨u, b⟩ hmem rfl
    exact hlog b (mem_logOf.mpr hmem)

/-- What stops a copy that owns its selection, or is to take the word that it does not. -/
theorem Standing.ends {server : XServer} {b : Action} (h : Standing w selection server)
    (hends : b.Ends w selection) (hallows : XServer.Allows t server w b) :
    .selectionClear ∈ server.queue w ∨ b = .call .xWaitForEvent (.xWaitForEvent none) ∨
      ∃ pid < 0, b = .call .fork (.fork pid) := by
  unfold Action.Ends at hends
  split at hends
  · obtain ⟨rfl, hne⟩ := hends
    refine .inl (h.resolve_left fun howner => hne ?_)
    rw [show _ = _ from hallows, howner]
    rfl
  · exact .inr (.inr ⟨_, hends, rfl⟩)
  · rcases hends with rfl | rfl
    · exact .inr (.inl rfl)
    · have hqueue := (hallows _ rfl).queue (by simp)
      refine .inl ?_
      rw [hqueue]
      exact List.mem_cons_self
  · exact hends.elim

theorem gone_path (hpath : Path (Steps t peers) s log s') (hlog : ∀ b ∈ logOf w log, b.claims = [])
    (h : Gone w s.1) : Gone w s'.1 := by
  refine hpath.keeps (C := fun x => x.1 = w → x.2.claims = []) (I := fun s => Gone w s.1) ?_ ?_ h
  · rintro s ⟨u, b⟩ s' hb hstep hs
    exact hs.change (change_of_step hstep) hb
  · rintro ⟨u, b⟩ hmem rfl
    exact hlog b (mem_logOf.mpr hmem)

/-- The state in which the claim has left the server, and the rest of the session. -/
theorem claim_split (hpath : Path (Steps t peers) s log s') {before after : List Action}
    (hlog : logOf w log = before ++ .xRequest (.setSelectionOwner w selection) :: after) :
    ∃ log₁ log₂ s₂, log = log₁ ++ (w, .xRequest (.setSelectionOwner w selection)) :: log₂ ∧
      logOf w log₂ = after ∧ Path (Steps t peers) s
        (log₁ ++ [(w, .xRequest (.setSelectionOwner w selection))]) s₂ ∧
      Path (Steps t peers) s₂ log₂ s' ∧ Standing w selection s₂.1 := by
  obtain ⟨log₁, log₂, rfl, -, hafter⟩ := logOf_eq_append_cons hlog
  obtain ⟨s₁, hpath₁, hrest⟩ := hpath.split
  obtain ⟨s₂, hstep, hpath₂⟩ := hrest.uncons
  refine ⟨log₁, log₂, s₂, rfl, hafter, hpath₁.append (.single hstep), hpath₂, .inl ?_⟩
  rw [joint_run (.single hstep)]
  change (s₁.1.own w selection).owner selection = some w
  rw [XServer.own_owner, if_pos rfl]

theorem Copying.gone (h : Copying clients log w sel data oneshot true)
    (hpath : Path (Steps t peers) (.initial, fun _ => []) log s)
    (his : ∀ v, (clients v).Is t v (peers v)) : Gone w s.1 := by
  have hinitial : Gone w XServer.initial := by
    intro selection howner
    cases howner
  have hcourse := h.course
  generalize hlog : logOf w log = done at hcourse
  cases hcourse with
  | unclaimed haside => exact gone_path hpath (hlog ▸ fun b hb => (haside b hb).claims) hinitial
  | @claimed v selection before course hclaimed =>
      cases hclaimed with
      | @returned course after hstops hend =>
          have hmem : (w, .xRequest (.setSelectionOwner v selection)) ∈ log := by
            rw [← mem_logOf, hlog]
            exact List.mem_append_right _ List.mem_cons_self
          obtain ⟨rfl, -⟩ := h.claim_own hpath his hmem
          rw [← List.cons_append, ← List.append_assoc] at hlog
          obtain ⟨log₁, log₂, rfl, -, hafter⟩ := logOf_eq_append_cons hlog
          obtain ⟨s₁, hpath₁, hrest⟩ := hpath.split
          obtain ⟨s₂, hstep, hpath₂⟩ := hrest.uncons
          refine gone_path hpath₂ (hafter ▸ fun b hb => (hend b hb).claims) ?_
          rw [joint_run (.single hstep)]
          exact gone_destroy

/-- At each time the owner of a selection is the last that claimed it. -/
theorem Session.latest (h : Session t clients (log ++ log'))
    (howner : ((XServer.environment t).run .initial log).owner selection = some v) :
    Latest log v selection := by
  obtain ⟨peers, -, hpath⟩ := h.path
  obtain ⟨s₁, hpath₁, -⟩ := hpath.split
  refine (recorded_path hpath₁).owner selection v ?_
  rwa [joint_run hpath₁]

/-- In any session the owner of a selection is a copy of it that has not returned, and the last that
claimed it. A copy that has claimed its selection and has not returned owns it, or is to take the word
that it was replaced: of two such copies one at least is. -/
theorem Session.ownership (h : Session t clients log) :
    (∀ selection v, ((XServer.environment t).run .initial log).owner selection = some v →
      ∃ sel, selection = selectionAtom (atomsOf t.atomOf) sel ∧ Latest log v selection ∧
        Holding t clients log v sel ∧ ∀ data oneshot, ¬ Copying clients log v sel data oneshot true) ∧
    (∀ v sel, Holding t clients log v sel →
      ((XServer.environment t).run .initial log).owner (selectionAtom (atomsOf t.atomOf) sel) = some v ∨
        .selectionClear ∈ ((XServer.environment t).run .initial log).queue v) ∧
    ∀ v v' sel, v ≠ v' → Holding t clients log v sel → Holding t clients log v' sel →
      .selectionClear ∈ ((XServer.environment t).run .initial log).queue v ∨
        .selectionClear ∈ ((XServer.environment t).run .initial log).queue v' := by
  obtain ⟨peers, his, hpath⟩ := h.path
  have hstanding : ∀ v sel, Holding t clients log v sel → Standing v
      (selectionAtom (atomsOf t.atomOf) sel) ((XServer.environment t).run .initial log) := by
    rintro v sel ⟨⟨data, oneshot, hcopying⟩, hmem⟩
    have hcourse := hcopying.course
    generalize hlog : logOf v log = done at hcourse
    cases hcourse with
    | unclaimed haside =>
        have hclaims := (haside _ (hlog ▸ mem_logOf.mpr hmem)).claims
        cases hclaims
    | @claimed w selection before course hclaimed =>
        obtain ⟨rfl, rfl⟩ : w = v ∧ selection = selectionAtom (atomsOf t.atomOf) sel := by
          refine hcopying.claim_own hpath his ?_
          rw [← mem_logOf, hlog]
          exact List.mem_append_right _ List.mem_cons_self
        cases hclaimed with
        | halted hkept =>
            obtain ⟨log₁, log₂, s₂, -, hafter, -, hpath₂, hs₂⟩ := claim_split hpath hlog
            exact standing_path hpath₂ (hafter ▸ hkept) hs₂
  refine ⟨fun selection v howner => ?_, hstanding, fun v v' sel hne hv hv' => ?_⟩
  · have hlatest := (recorded_path hpath).owner selection v howner
    obtain ⟨-, common, o, data, hclient, rfl⟩ := claim_own hpath his hlatest.mem
    have hended : ∀ data oneshot, ¬ Copying clients log v common.selection data oneshot true :=
      fun _ _ hcopying => hcopying.gone hpath his _ howner
    obtain ⟨p, after, hbefore, hafter, hlog⟩ := h.runs v
    rw [hclient] at hlog
    have hcopying : ∀ returned, (CopyCommand.runX11 common o data p).1.isOk = returned →
        Copying clients log v common.selection data o.oneshot returned := fun _ hok =>
      ⟨common, o, p, after, hclient, rfl, rfl, hbefore, hafter, hlog, hok⟩
    refine ⟨common.selection, rfl, hlatest, ⟨⟨data, o.oneshot, ?_⟩, hlatest.mem⟩, hended⟩
    rcases hok : (CopyCommand.runX11 common o data p).1.isOk with _ | _
    · exact hcopying false hok
    · exact absurd (hcopying true hok) (hended data o.oneshot)
  · rcases hstanding v sel hv with howner | hcleared
    · rcases hstanding v' sel hv' with howner' | hcleared'
      · exact absurd (Option.some.inj (howner.symm.trans howner')) hne
      · exact .inr hcleared'
    · exact .inl hcleared

/-- A copy that has claimed its selection and returned was replaced by another one, lost its connection
or could not go to the background, or was to serve once and has given its payload. -/
theorem Session.copy_ends (h : Session t clients log)
    (hcopying : Copying clients log w sel data oneshot true)
    (hclaimed : (w, .xRequest (.setSelectionOwner w (selectionAtom (atomsOf t.atomOf) sel))) ∈ log) :
    Replaced log w (selectionAtom (atomsOf t.atomOf) sel) ∨
      (w, .call .xWaitForEvent (.xWaitForEvent none)) ∈ log ∨
      (∃ pid < 0, (w, .call .fork (.fork pid)) ∈ log) ∨
      oneshot = true ∧ ∃ b, (w, b) ∈ log ∧ b.Gives data := by
  obtain ⟨peers, his, hpath⟩ := h.path
  have hcourse := hcopying.course
  generalize hlog : logOf w log = done at hcourse
  have hin : ∀ b ∈ done, (w, b) ∈ log := fun b hb => mem_logOf.mp (hlog ▸ hb)
  cases hcourse with
  | unclaimed haside =>
      have hclaims := (haside _ (hlog ▸ mem_logOf.mpr hclaimed)).claims
      cases hclaims
  | @claimed v selection before course hclaimed' =>
      obtain ⟨rfl, rfl⟩ : v = w ∧ selection = selectionAtom (atomsOf t.atomOf) sel :=
        hcopying.claim_own hpath his (hin _ (List.mem_append_right _ List.mem_cons_self))
      cases hclaimed' with
      | @returned course end' hstops hend =>
          rcases hstops with ⟨honeshot, b, hb, hgives⟩ | ⟨before', b, after', rfl, hkept, hends⟩
          · refine .inr (.inr (.inr ⟨honeshot, b, hin b ?_, hgives⟩))
            exact List.mem_append_right _ (List.mem_cons_of_mem _ (List.mem_append_left _ hb))
          obtain ⟨log₁, log₂, s₂, rfl, hafter, hpath₁, hpath₂, hs₂⟩ := claim_split hpath hlog
          rw [List.append_assoc, List.cons_append] at hafter
          obtain ⟨log₃, log₄, rfl, hlog₃, -⟩ := logOf_eq_append_cons hafter
          obtain ⟨s₃, hpath₃, hrest⟩ := hpath₂.split
          obtain ⟨s₄, hstep, -⟩ := hrest.uncons
          have hs₃ := standing_path hpath₃ (hlog₃ ▸ hkept) hs₂
          have hreplaced : .selectionClear ∈ s₃.1.queue v → Replaced (log₁ ++ (v, .xRequest
              (.setSelectionOwner v (selectionAtom (atomsOf t.atomOf) sel))) :: (log₃ ++ (v, b) :: log₄))
              v (selectionAtom (atomsOf t.atomOf) sel) := by
            intro hcleared
            obtain ⟨selection, hreplaced⟩ := (recorded_path (hpath₁.append hpath₃)).cleared v hcleared
            have hlonger : Replaced (_ ++ (v, b) :: log₄) v selection := hreplaced.append
            simp only [List.append_assoc, List.singleton_append] at hlonger
            obtain ⟨before, after, u, heq, hu, hmem⟩ := hlonger
            obtain ⟨-, rfl⟩ := hcopying.claim_own hpath his (heq ▸ List.mem_append_left _ hmem)
            exact ⟨before, after, u, heq, hu, hmem⟩
          rcases hs₃.ends hends (joint_allows hstep) with hcleared | rfl | ⟨pid, hpid, rfl⟩
          · exact .inl (hreplaced hcleared)
          · exact .inr (.inl (by simp))
          · exact .inr (.inr (.inl ⟨pid, hpid, by simp⟩))

end

/-! ## A copy that replaces another -/

def relay (w : Window) : Client :=
  if w = 42 ∨ w = 43 then .copy CopyCommand.defaultOptions
    { CopyCommand.CopyOpts.new with foreground := true } (plain [0x68, 0x69])
  else .paste [] .regular [] false

def relayStart (w : Window) : Process :=
  if w = 42 then .fresh (connected 3 42 ++ [.xGetSelectionOwner (some 42),
    .xWaitForEvent (some .selectionClear)])
  else if w = 43 then .fresh (connected 4 43 ++ [.xGetSelectionOwner (some 43)])
  else .fresh []

def relayTrace (w : Window) : List Action := ((relay w).run (relayStart w)).trace

@[irreducible] def relayed : List (Window × Action) :=
  ((relayTrace 42).take 12).map (fun a => (42, a)) ++ (relayTrace 43).map (fun a => (43, a)) ++
    ((relayTrace 42).drop 12).map fun a => (42, a)

theorem relayed_permitted : XServer.permitsAll table .initial relayed = true := by decide +kernel

theorem logOf_relayed (w : Window) : logOf w relayed = relayTrace w := by
  unfold relayed
  by_cases h42 : w = 42
  · subst h42
    simp only [logOf_append, logOf_map_self, logOf_map_of_ne (show (43 : Window) ≠ 42 by decide),
      List.append_nil, List.take_append_drop]
  by_cases h43 : w = 43
  · subst h43
    simp only [logOf_append, logOf_map_self, logOf_map_of_ne (show (42 : Window) ≠ 43 by decide),
      List.append_nil, List.nil_append]
  · simp only [logOf_append, logOf_map_of_ne (Ne.symm h42), logOf_map_of_ne (Ne.symm h43),
      List.append_nil]
    unfold relayTrace relay relayStart
    rw [if_neg (not_or.mpr ⟨h42, h43⟩), if_neg h42, if_neg h43]
    rfl

theorem session_relayed : Session table relay relayed where
  conforms := XServer.conforms_of_permitsAll relayed_permitted
  runs w := by
    have hfresh : (relayStart w).trace = [] := by
      unfold relayStart
      split_ifs <;> rfl
    refine ⟨relayStart w, [], hfresh ▸ List.forall_mem_nil _, List.forall_mem_nil _, ?_⟩
    rw [logOf_relayed, List.append_nil]
    rfl

theorem ownership_relayed :
    ((XServer.environment table).run .initial relayed).owner 300 = some 43 ∧
      ∃ sel, 300 = selectionAtom (atomsOf table.atomOf) sel ∧ Latest relayed 43 300 ∧
        Holding table relay relayed 43 sel ∧ ∀ data oneshot, ¬ Copying relay relayed 43 sel data oneshot true := by
  have howner : ((XServer.environment table).run .initial relayed).owner 300 = some 43 := by
    decide +kernel
  exact ⟨howner, session_relayed.ownership.1 300 43 howner⟩

theorem copying_relayed : Copying relay relayed 42 .regular (plain [0x68, 0x69]) false true := by
  have hclient : relay 42 = .copy CopyCommand.defaultOptions
      { CopyCommand.CopyOpts.new with foreground := true } (plain [0x68, 0x69]) := if_pos (.inl rfl)
  refine ⟨_, _, relayStart 42, [], hclient, rfl, rfl, List.forall_mem_nil _, List.forall_mem_nil _, ?_,
    by decide +kernel⟩
  rw [logOf_relayed, relayTrace, hclient, Client.run, List.append_nil]

theorem claimed_relayed : (42, .xRequest (.setSelectionOwner 42
    (selectionAtom (atomsOf table.atomOf) .regular))) ∈ relayed := by
  have hany : (relayTrace 42).any (fun a => a.claims = [(42, selectionAtom (atomsOf table.atomOf)
      .regular)]) = true := by decide +kernel
  obtain ⟨a, ha, hclaims⟩ := List.any_eq_true.mp hany
  rw [claims_eq (of_decide_eq_true hclaims)] at ha
  rwa [← mem_logOf, logOf_relayed]

theorem copy_ends_relayed :
    Replaced relayed 42 (selectionAtom (atomsOf table.atomOf) .regular) ∨
      (42, .call .xWaitForEvent (.xWaitForEvent none)) ∈ relayed ∨
      (∃ pid < 0, (42, .call .fork (.fork pid)) ∈ relayed) ∨
      false = true ∧ ∃ b, (42, b) ∈ relayed ∧ b.Gives (plain [0x68, 0x69]) :=
  session_relayed.copy_ends copying_relayed claimed_relayed

end X11

end WlClip
