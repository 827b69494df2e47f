import WlClip.X11Peers

/-!
# A conversation with the owner of a selection

What the clients have yet to do for a window that asks for a conversion: its requests are in the
queues of owners, the replies to it are being made, or a notification is in its own queue. While the
window only waits there is one request at most that is at one of these places, so what is notified
is the answer to that.
-/

open Interleaving LittleEndian

namespace WlClip

namespace X11

/-- The server, and the replies that each client has yet to make. -/
abbrev System := XServer × (Window → List XRequest)

abbrev Steps (t : AtomTable) (peers : Window → Peer) : System → Window × Action → System → Prop :=
  Joint (XServer.environment t) fun v => Takes v (peers v)

/-! ## What is on its way -/

def asks (w : Window) : XEvent → Option SelectionRequest
  | .selectionRequest req => if req.requestor = w then some req else none
  | _ => none

def notice : XEvent → Option SelectionNotify
  | .selectionNotify n => some n
  | _ => none

def addresses (w : Window) : XRequest → Bool
  | .changeProperty v _ _ _ _ => v = w
  | .sendNotify v _ => v = w
  | _ => false

/-- The requests for the window that a client has not taken. -/
def wanted (w : Window) (s : System) (v : Window) : List SelectionRequest :=
  (s.1.queue v).filterMap (asks w)

/-- The replies to the window that a client has not made. -/
def due (w : Window) (s : System) (v : Window) : List XRequest := (s.2 v).filter (addresses w)

/-- The notifications that the window has not taken. -/
def told (w : Window) (s : System) : List SelectionNotify := (s.1.queue w).filterMap notice

/-- What the window does while it waits. -/
inductive Waits : Action → Prop
  | aside {a : Action} (h : a.Aside) : Waits a
  | poll {e : XEvent} (h : notice e = none) : Waits (.call .xPollForEvent (.xPollForEvent (some e)))

/-- What one step does for the window: requests are lost at most, or one is taken or replied to. -/
inductive Effect (w : Window) (peers : Window → Peer) (s s' : System) : Prop
  | lost (hwanted : ∀ v, wanted w s' v <:+ wanted w s v) (hdue : ∀ v, due w s' v = due w s v)
      (htold : told w s' = told w s) (hstored : s'.1.stored w = s.1.stored w)
  | taken {v : Window} {ctx : CopyContext} {req : SelectionRequest} (hpeer : peers v = .owner ctx)
      (htaken : wanted w s v = req :: wanted w s' v)
      (hwanted : ∀ u, u ≠ v → wanted w s' u = wanted w s u)
      (hdue : due w s' v = reply ctx (counted ctx.data.bytes) req)
      (hothers : ∀ u, u ≠ v → due w s' u = due w s u)
      (htold : told w s' = told w s)
  | replied {v : Window} {r : XRequest} (hreplied : due w s v = r :: due w s' v)
      (hothers : ∀ u, u ≠ v → due w s' u = due w s u) (hwanted : ∀ u, wanted w s' u = wanted w s u)
      (hserver : s'.1 = s.1.request r)

section

variable {t : AtomTable} {peers : Window → Peer} {w v : Window} {s s' : System} {a : Action}

theorem queue_enqueue {β : Type} {f : XEvent → Option β} {e : XEvent} {server : XServer}
    (h : v ≠ w ∨ f e = none) :
    ((server.enqueue v e).queue w).filterMap f = (server.queue w).filterMap f := by
  by_cases hv : w = v
  · subst hv
    rw [XServer.enqueue_queue_self, List.filterMap_append,
      List.filterMap_cons_none (h.resolve_left fun hne => hne rfl), List.filterMap_nil,
      List.append_nil]
  · rw [XServer.enqueue_queue_of_ne hv]

theorem queue_dequeue {β : Type} {f : XEvent → Option β} {e : XEvent} {server : XServer}
    (h : server.Delivers v e) :
    ((server.dequeue v e).queue w).filterMap f <:+ (server.queue w).filterMap f ∧
      (v ≠ w ∨ f e = none →
        ((server.dequeue v e).queue w).filterMap f = (server.queue w).filterMap f) := by
  by_cases he : e = .other
  · subst he
    rw [XServer.dequeue_other]
    exact ⟨List.suffix_rfl, fun _ => rfl⟩
  by_cases hv : w = v
  · subst hv
    rw [h.queue he]
    refine ⟨?_, fun hne => ?_⟩
    · exact (List.suffix_cons _ _).filterMap f
    · rw [List.filterMap_cons_none (hne.resolve_left fun hne => hne rfl)]
  · rw [XServer.dequeue_queue_of_ne hv]
    exact ⟨List.suffix_rfl, fun _ => rfl⟩

section

variable {server server' : XServer} {todo : Window → List XRequest} {rest : List XRequest} {u : Window}

theorem due_self : due w (server, Function.update todo v rest) v = rest.filter (addresses w) :=
  congrArg (List.filter (addresses w)) (Function.update_self ..)

theorem due_of_ne (h : u ≠ v) :
    due w (server', Function.update todo v rest) u = due w (server, todo) u :=
  congrArg (List.filter (addresses w)) (Function.update_of_ne h ..)

theorem due_update (h : rest.filter (addresses w) = (todo v).filter (addresses w)) (u : Window) :
    due w (server', Function.update todo v rest) u = due w (server, todo) u := by
  by_cases hu : u = v
  · subst hu
    rw [due_self, h]
    rfl
  · exact due_of_ne hu

end

theorem asks_some {e : XEvent} {req : SelectionRequest} (h : asks w e = some req) :
    e = .selectionRequest req ∧ req.requestor = w := by
  unfold asks at h
  split at h
  · split_ifs at h with hw
    cases h
    exact ⟨rfl, hw⟩
  · cases h

theorem reply_filter (ctx : CopyContext) (payload : List UInt8) (req : SelectionRequest) :
    (reply ctx payload req).filter (addresses w) =
      if req.requestor = w then reply ctx payload req else [] := by
  obtain ⟨type, format, data, hstoring⟩ := storing_eq ctx payload req
  rw [reply, hstoring]
  by_cases hw : req.requestor = w <;> by_cases hrefuse : Refuses ctx req <;>
    simp [hw, hrefuse, addresses, notification]

theorem replies_filter {ctx : CopyContext} {payload : List UInt8} {e : XEvent}
    (h : asks w e = none) : (replies ctx payload e).filter (addresses w) = [] := by
  cases e with
  | selectionRequest req =>
      have hne : ¬ req.requestor = w := by simpa [asks] using h
      rw [replies, reply_filter, if_neg hne]
  | _ => rfl

theorem Effect.kept (hwanted : ∀ u, wanted w s' u = wanted w s u) (hdue : ∀ u, due w s' u = due w s u)
    (htold : told w s' = told w s) (hstored : s'.1.stored w = s.1.stored w) :
    Effect w peers s s' :=
  .lost (fun u => by rw [hwanted]) hdue htold hstored

theorem not_waits_request {r : XRequest} : ¬ Waits (.xRequest r) := by
  rintro ⟨⟨⟩⟩

section

variable {server : XServer} {todo : Window → List XRequest}

theorem effect_event {ctx : CopyContext} {e : XEvent} (hpeer : peers v = .owner ctx)
    (htodo : todo v = []) (hdelivers : server.Delivers v e) (hne : v ≠ w) :
    Effect w peers (server, todo)
      (server.dequeue v e, Function.update todo v (replies ctx (counted ctx.data.bytes) e)) := by
  have htold := (queue_dequeue (f := notice) (w := w) hdelivers).2 (.inl hne)
  rcases hreq : asks w e with _ | req
  · refine .lost (fun u => (queue_dequeue hdelivers).1) (due_update ?_) htold ?_
    · rw [replies_filter hreq, htodo, List.filter_nil]
    · exact congrFun XServer.dequeue_stored w
  · obtain ⟨rfl, hrequestor⟩ := asks_some hreq
    have htaken : wanted w (server, todo) v =
        req :: wanted w (server.dequeue v (.selectionRequest req), Function.update todo v
          (replies ctx (counted ctx.data.bytes) (.selectionRequest req))) v := by
      have hqueue := hdelivers.queue (by simp)
      rw [wanted, hqueue, List.filterMap_cons_some hreq]
      rfl
    refine .taken hpeer htaken (fun u hu => ?_) ?_ (fun u hu => ?_) htold
    · exact (queue_dequeue hdelivers).2 (.inl hu.symm)
    · rw [due_self, replies, reply_filter, if_pos hrequestor]
    · exact due_of_ne hu

theorem effect_reply {r : XRequest} {rest : List XRequest} (htodo : todo v = r :: rest)
    (h : r.Replies) :
    Effect w peers (server, todo) (server.request r, Function.update todo v rest) := by
  by_cases haddr : addresses w r = true
  · refine .replied (v := v) (r := r) ?_ (fun u hu => ?_) (fun u => ?_) rfl
    · rw [due_self, ← List.filter_cons_of_pos haddr, ← htodo]
      rfl
    · exact due_of_ne hu
    · cases r with
      | changeProperty => exact congrArg (List.filterMap (asks w)) (congrFun XServer.store_queue u)
      | sendNotify => exact queue_enqueue (.inr rfl)
      | _ => cases h
  · have hrest : rest.filter (addresses w) = (todo v).filter (addresses w) := by
      rw [htodo, List.filter_cons_of_neg haddr]
    cases r with
    | changeProperty u name type format data =>
        have hne : w ≠ u := fun heq => haddr (by simp [addresses, heq])
        refine .kept (fun u' => ?_) (due_update hrest) ?_ (XServer.store_stored_of_ne hne)
        · exact congrArg (List.filterMap (asks w)) (congrFun XServer.store_queue u')
        · exact congrArg (List.filterMap notice) (congrFun XServer.store_queue w)
    | sendNotify u n =>
        have hne : u ≠ w := fun heq => haddr (by simp [addresses, heq])
        exact .kept (fun u' => queue_enqueue (.inr rfl)) (due_update hrest)
          (queue_enqueue (.inl hne)) rfl
    | _ => cases h

theorem effect_own {selection : Atom} :
    Effect w peers (server, todo) (server.own v selection, todo) := by
  have hqueue : ∀ {β : Type} {f : XEvent → Option β} (u : Window), f .selectionClear = none →
      ((server.own v selection).queue u).filterMap f = (server.queue u).filterMap f := by
    intro β f u hf
    have howned : (server.own v selection).queue u = server.queue u ∨
        (server.own v selection).queue u = server.queue u ++ [.selectionClear] := XServer.own_queue
    rcases howned with h | h <;> rw [h]
    rw [List.filterMap_append, List.filterMap_cons_none hf, List.filterMap_nil, List.append_nil]
  exact .kept (fun u => hqueue u rfl) (fun _ => rfl) (hqueue w rfl) (congrFun XServer.own_stored w)

theorem effect_destroy (hne : w ≠ v) :
    Effect w peers (server, todo) (server.destroy v, todo) := by
  refine .lost (fun u => ?_) (fun _ => rfl) ?_ (XServer.destroy_stored_of_ne hne)
  · by_cases hu : u = v
    · subst hu
      have hnone : wanted w (server.destroy u, todo) u = [] := by
        rw [wanted, XServer.destroy_queue_self]
        rfl
      exact hnone ▸ List.nil_suffix
    · change ((server.destroy v).queue u).filterMap (asks w) <:+ _
      rw [XServer.destroy_queue_of_ne hu]
      exact List.suffix_rfl
  · exact congrArg (List.filterMap notice) (XServer.destroy_queue_of_ne hne)

theorem effect_convert {selection target property : Atom} (hne : v ≠ w) :
    Effect w peers (server, todo) (server.convert v selection target property, todo) := by
  unfold XServer.convert
  split
  · have hnone : asks w (.selectionRequest ⟨0, v, selection, target, property⟩) = none :=
      if_neg hne
    exact .kept (fun u => queue_enqueue (.inr hnone)) (fun _ => rfl) (queue_enqueue (.inr rfl)) rfl
  · exact .kept (fun u => queue_enqueue (.inr rfl)) (fun _ => rfl) (queue_enqueue (.inl hne)) rfl

theorem effect_poll {e : XEvent} (hdelivers : server.Delivers v e)
    (hnotice : v ≠ w ∨ notice e = none) :
    Effect w peers (server, todo) (server.dequeue v e, todo) :=
  .lost (fun _ => (queue_dequeue hdelivers).1) (fun _ => rfl) ((queue_dequeue hdelivers).2 hnotice)
    (congrFun XServer.dequeue_stored w)

end

/-- A step takes an event or makes a reply, or does nothing for a window that only asks and waits if
it is the one that makes the step. -/
theorem effect_of_step (hw : peers w = .requestor) (hwaits : v = w → Waits a)
    (h : Steps t peers s (v, a) s') : Effect w peers s s' := by
  cases h with
  | @step server todo _ _ rest hallows hstep =>
  generalize hpeer : peers v = peer at hstep
  generalize htodo : todo v = before at hstep
  have hsame : Function.update todo v before = todo := by rw [← htodo, Function.update_eq_self]
  cases hstep with
  | aside h =>
      have hafter : (XServer.environment t).after server v a = server := h.after server v
      rw [hafter, hsame]
      exact .kept (fun _ => rfl) (fun _ => rfl) rfl rfl
  | @event ctx e =>
      have hne : v ≠ w := by
        rintro rfl
        rw [hw] at hpeer
        cases hpeer
      exact effect_event hpeer htodo (hallows e rfl) hne
  | reply h => exact effect_reply htodo h
  | own =>
      rw [hsame]
      exact effect_own
  | destroy =>
      rw [hsame]
      exact effect_destroy fun h => not_waits_request (hwaits h.symm)
  | convert =>
      rw [hsame]
      exact effect_convert fun h => not_waits_request (hwaits h)
  | @poll e =>
      rw [hsame]
      refine effect_poll (hallows e rfl) (Classical.or_iff_not_imp_left.mpr fun h => ?_)
      cases hwaits (not_not.mp h) with
      | aside h => simp [Action.Aside, Call.takes] at h
      | poll h => exact h
  | read =>
      have hne : w ≠ v := by
        rintro rfl
        cases hwaits rfl with
        | aside h => simp [Action.Aside, Call.takes] at h
      rw [hsame]
      exact .kept (fun _ => rfl) (fun _ => rfl) rfl (XServer.put_stored_of_ne hne)

end

/-! ## Where a request is -/

/-- What the owner stores in answer to the request is what the window has. -/
def Holds (ctx : CopyContext) (req : SelectionRequest) (server : XServer) : Prop :=
  ∃ type format data prop, storing ctx (counted ctx.data.bytes) req =
      .changeProperty req.requestor (replyProperty req) type format data ∧
    server.stored req.requestor (replyProperty req) = some prop ∧ prop.type = type ∧
    prop.value = data

/-- Nothing is on its way to the window. -/
structure Quiet (w : Window) (s : System) : Prop where
  wanted : ∀ v, wanted w s v = []
  due : ∀ v, due w s v = []
  told : told w s = []

/-- Where the request is, if it was passed to the owner `o`. -/
inductive Phase (peers : Window → Peer) (o : Option Window) (req : SelectionRequest) (s : System) : Prop
  | lost (h : Quiet req.requestor s)
  | pending {v : Window} (hv : o = some v) (hwanted : wanted req.requestor s v = [req])
      (hothers : ∀ u, u ≠ v → wanted req.requestor s u = [])
      (hdue : ∀ u, due req.requestor s u = []) (htold : told req.requestor s = [])
  | taken {v : Window} {ctx : CopyContext} (hv : o = some v) (hpeer : peers v = .owner ctx)
      (hwanted : ∀ u, wanted req.requestor s u = [])
      (hdue : due req.requestor s v = reply ctx (counted ctx.data.bytes) req)
      (hothers : ∀ u, u ≠ v → due req.requestor s u = []) (htold : told req.requestor s = [])
  | stored {v : Window} {ctx : CopyContext} (hv : o = some v) (hpeer : peers v = .owner ctx)
      (hwanted : ∀ u, wanted req.requestor s u = [])
      (hdue : due req.requestor s v = [notification req (replyProperty req)])
      (hothers : ∀ u, u ≠ v → due req.requestor s u = []) (htold : told req.requestor s = [])
      (hkept : ¬ Refuses ctx req) (hholds : Holds ctx req s.1)
  | notified {n : SelectionNotify} (hwanted : ∀ u, wanted req.requestor s u = [])
      (hdue : ∀ u, due req.requestor s u = []) (htold : told req.requestor s = [n])
      (hanswer : n.property ≠ 0 → ∃ v ctx, o = some v ∧ peers v = .owner ctx ∧
        ¬ Refuses ctx req ∧ Holds ctx req s.1)

section

variable {peers : Window → Peer} {o : Option Window} {req : SelectionRequest} {s s' : System}

theorem Holds.of_stored {ctx : CopyContext} {server server' : XServer}
    (h : Holds ctx req server) (hstored : server'.stored req.requestor = server.stored req.requestor) :
    Holds ctx req server' := by
  obtain ⟨type, format, data, prop, hstoring, hprop, htype, hvalue⟩ := h
  exact ⟨type, format, data, prop, hstoring, by rw [hstored, hprop], htype, hvalue⟩

theorem counted_length {α : Type} (items : List α) : (counted items).length < 2 ^ 32 := by
  have hlt := Nat.mod_lt items.length (show 0 < 2 ^ 32 by decide)
  rw [counted, List.length_take]
  omega

theorem storing_length {ctx : CopyContext} (hcount : ctx.targets.length < 2 ^ 32)
    {window : Window} {name type : Atom} {format : ℕ} {data : List UInt8}
    (h : storing ctx (counted ctx.data.bytes) req = .changeProperty window name type format data) :
    data.length < 2 ^ 34 := by
  unfold storing at h
  split_ifs at h <;> cases h
  · have hlen : (ctx.targets.flatMap fun t => u32Bytes t.atom).length = ctx.targets.length * 4 := by
      simp [List.length_flatMap]
    omega
  · decide
  · exact Nat.lt_trans (counted_length _) (by decide)

/-- A request that no one takes or replies to stays where it is or is lost. -/
theorem Phase.lose (h : Phase peers o req s)
    (hwanted : ∀ v, wanted req.requestor s' v <:+ wanted req.requestor s v)
    (hdue : ∀ v, due req.requestor s' v = due req.requestor s v)
    (htold : told req.requestor s' = told req.requestor s)
    (hstored : s'.1.stored req.requestor = s.1.stored req.requestor) : Phase peers o req s' := by
  have hnil : ∀ {u}, wanted req.requestor s u = [] → wanted req.requestor s' u = [] :=
    fun {u} h => List.suffix_nil.mp (h ▸ hwanted u)
  cases h with
  | lost h => exact .lost ⟨fun u => hnil (h.wanted u), fun u => (hdue u).trans (h.due u),
      htold.trans h.told⟩
  | @pending v hv hwanted₀ hothers hdue₀ htold₀ =>
      have hothers' : ∀ u, u ≠ v → wanted req.requestor s' u = [] := fun u hu => hnil (hothers u hu)
      have hdue' : ∀ u, due req.requestor s' u = [] := fun u => (hdue u).trans (hdue₀ u)
      rcases List.suffix_cons_iff.mp (hwanted₀ ▸ hwanted v) with hsame | hgone
      · exact .pending hv hsame hothers' hdue' (htold.trans htold₀)
      · refine .lost ⟨fun u => ?_, hdue', htold.trans htold₀⟩
        by_cases hu : u = v
        · subst hu
          exact List.suffix_nil.mp hgone
        · exact hothers' u hu
  | taken hv hpeer hwanted₀ hdue₀ hothers htold₀ =>
      exact .taken hv hpeer (fun u => hnil (hwanted₀ u)) ((hdue _).trans hdue₀)
        (fun u hu => (hdue u).trans (hothers u hu)) (htold.trans htold₀)
  | stored hv hpeer hwanted₀ hdue₀ hothers htold₀ hkept hholds =>
      exact .stored hv hpeer (fun u => hnil (hwanted₀ u)) ((hdue _).trans hdue₀)
        (fun u hu => (hdue u).trans (hothers u hu)) (htold.trans htold₀) hkept
        (hholds.of_stored hstored)
  | notified hwanted₀ hdue₀ htold₀ hanswer =>
      refine .notified (fun u => hnil (hwanted₀ u)) (fun u => (hdue u).trans (hdue₀ u))
        (htold.trans htold₀) fun hn => ?_
      obtain ⟨v, ctx, hv, hpeer, hkept, hholds⟩ := hanswer hn
      exact ⟨v, ctx, hv, hpeer, hkept, hholds.of_stored hstored⟩

theorem Phase.take {v : Window} {ctx : CopyContext} {req' : SelectionRequest}
    (h : Phase peers o req s) (hpeer : peers v = .owner ctx)
    (htaken : wanted req.requestor s v = req' :: wanted req.requestor s' v)
    (hwanted : ∀ u, u ≠ v → wanted req.requestor s' u = wanted req.requestor s u)
    (hdue : due req.requestor s' v = reply ctx (counted ctx.data.bytes) req')
    (hothers : ∀ u, u ≠ v → due req.requestor s' u = due req.requestor s u)
    (htold : told req.requestor s' = told req.requestor s) : Phase peers o req s' := by
  have hsome : wanted req.requestor s v ≠ [] := by
    rw [htaken]
    exact List.cons_ne_nil _ _
  cases h with
  | lost h => exact absurd (h.wanted v) hsome
  | @pending u hu hwanted₀ hothers₀ hdue₀ htold₀ =>
      obtain rfl : v = u := by
        by_contra hne
        exact hsome (hothers₀ v hne)
      obtain ⟨rfl, hrest⟩ := List.cons.inj (htaken.symm.trans hwanted₀)
      refine .taken hu hpeer (fun u => ?_) hdue (fun u hne => ?_) (htold.trans htold₀)
      · by_cases hne : u = v
        · subst hne
          exact hrest
        · exact (hwanted u hne).trans (hothers₀ u hne)
      · exact (hothers u hne).trans (hdue₀ u)
  | taken _ _ hwanted₀ => exact absurd (hwanted₀ v) hsome
  | stored _ _ hwanted₀ => exact absurd (hwanted₀ v) hsome
  | notified hwanted₀ => exact absurd (hwanted₀ v) hsome

theorem Phase.replied {v : Window} {r : XRequest}
    (hcount : ∀ v ctx, peers v = .owner ctx → ctx.targets.length < 2 ^ 32)
    (h : Phase peers o req s) (hreplied : due req.requestor s v = r :: due req.requestor s' v)
    (hothers : ∀ u, u ≠ v → due req.requestor s' u = due req.requestor s u)
    (hwanted : ∀ u, wanted req.requestor s' u = wanted req.requestor s u)
    (hserver : s'.1 = s.1.request r) : Phase peers o req s' := by
  have hsome : due req.requestor s v ≠ [] := by
    rw [hreplied]
    exact List.cons_ne_nil _ _
  have hnone : ∀ {v'}, (∀ u, u ≠ v' → due req.requestor s u = []) → v = v' := by
    intro v' h
    by_contra hne
    exact hsome (h v hne)
  have hnotified : ∀ {n}, r = .sendNotify req.requestor n → told req.requestor s = [] →
      told req.requestor s' = [n] := by
    rintro n rfl h
    rw [told, hserver, XServer.request, XServer.enqueue_queue_self, List.filterMap_append]
    change told req.requestor s ++ [n] = [n]
    rw [h, List.nil_append]
  cases h with
  | lost h => exact absurd (h.due v) hsome
  | pending _ _ _ hdue₀ => exact absurd (hdue₀ v) hsome
  | @taken v' ctx hv hpeer hwanted₀ hdue₀ hothers₀ htold₀ =>
      obtain rfl := hnone hothers₀
      have hwanted' : ∀ u, wanted req.requestor s' u = [] := fun u =>
        (hwanted u).trans (hwanted₀ u)
      have hreply := hreplied.symm.trans hdue₀
      by_cases hrefuse : Refuses ctx req
      · rw [reply, if_pos hrefuse] at hreply
        obtain ⟨rfl, hrest⟩ := List.cons.inj hreply
        refine .notified hwanted' (fun u => ?_) (hnotified rfl htold₀) fun hn => absurd rfl hn
        by_cases hne : u = v
        · subst hne
          exact hrest
        · exact (hothers u hne).trans (hothers₀ u hne)
      · rw [reply, if_neg hrefuse] at hreply
        obtain ⟨rfl, hrest⟩ := List.cons.inj hreply
        obtain ⟨type, format, data, hstoring⟩ := storing_eq ctx (counted ctx.data.bytes) req
        have hlength := storing_length (hcount v ctx hpeer) hstoring
        rw [hstoring] at hserver
        refine .stored hv hpeer hwanted' hrest (fun u hne => (hothers u hne).trans (hothers₀ u hne))
          ?_ hrefuse ⟨type, format, data, ⟨type, data, hlength⟩, hstoring, ?_, rfl, rfl⟩
        · rw [told, hserver]
          exact (congrArg (List.filterMap notice) (congrFun XServer.store_queue _)).trans htold₀
        · rw [hserver]
          exact XServer.store_stored_self hlength
  | @stored v' ctx hv hpeer hwanted₀ hdue₀ hothers₀ htold₀ hkept hholds =>
      obtain rfl := hnone hothers₀
      obtain ⟨rfl, hrest⟩ := List.cons.inj (hreplied.symm.trans hdue₀)
      refine .notified (fun u => (hwanted u).trans (hwanted₀ u)) (fun u => ?_)
        (hnotified rfl htold₀) fun _ => ⟨v, ctx, hv, hpeer, hkept, hholds.of_stored ?_⟩
      · by_cases hne : u = v
        · subst hne
          exact hrest
        · exact (hothers u hne).trans (hothers₀ u hne)
      · rw [hserver]
        rfl
  | notified _ hdue₀ => exact absurd (hdue₀ v) hsome

theorem Phase.effect (hcount : ∀ v ctx, peers v = .owner ctx → ctx.targets.length < 2 ^ 32)
    (h : Phase peers o req s) (heffect : Effect req.requestor peers s s') :
    Phase peers o req s' := by
  cases heffect with
  | lost hwanted hdue htold hstored => exact h.lose hwanted hdue htold hstored
  | taken hpeer htaken hwanted hdue hothers htold =>
      exact h.take hpeer htaken hwanted hdue hothers htold
  | replied hreplied hothers hwanted hserver =>
      exact h.replied hcount hreplied hothers hwanted hserver

end

/-! ## Asking and being told -/

section

variable {t : AtomTable} {peers : Window → Peer} {w : Window} {s s' : System}
  {log : List (Window × Action)}

theorem Quiet.effect (h : Quiet w s) (heffect : Effect w peers s s') :
    Quiet w s' ∧ s'.1.stored w = s.1.stored w := by
  cases heffect with
  | lost hwanted hdue htold hstored =>
      exact ⟨⟨fun u => List.suffix_nil.mp (h.wanted u ▸ hwanted u), fun u => (hdue u).trans (h.due u),
        htold.trans h.told⟩, hstored⟩
  | @taken v _ _ _ htaken => cases (h.wanted v).symm.trans htaken
  | @replied v _ hreplied => cases (h.due v).symm.trans hreplied

theorem Quiet.path (hw : peers w = .requestor) (h : Quiet w s) (hpath : Path (Steps t peers) s log s')
    (hlog : ∀ a ∈ logOf w log, Waits a) : Quiet w s' ∧ s'.1.stored w = s.1.stored w := by
  refine hpath.keeps (I := fun s' => Quiet w s' ∧ s'.1.stored w = s.1.stored w)
    (C := fun x => x.1 = w → Waits x.2) ?_ ?_ ⟨h, rfl⟩
  · rintro s₁ ⟨v, a⟩ s₂ hwaits hstep ⟨hquiet, hstored⟩
    obtain ⟨hquiet', hstored'⟩ := hquiet.effect (effect_of_step hw hwaits hstep)
    exact ⟨hquiet', hstored'.trans hstored⟩
  · rintro ⟨v, a⟩ hx rfl
    exact hlog a (mem_logOf.mpr hx)

theorem Phase.path {o : Option Window} {req : SelectionRequest}
    (hcount : ∀ v ctx, peers v = .owner ctx → ctx.targets.length < 2 ^ 32)
    (hw : peers req.requestor = .requestor) (h : Phase peers o req s)
    (hpath : Path (Steps t peers) s log s') (hlog : ∀ a ∈ logOf req.requestor log, Waits a) :
    Phase peers o req s' := by
  refine hpath.keeps (I := Phase peers o req) (C := fun x => x.1 = req.requestor → Waits x.2) ?_ ?_ h
  · rintro s₁ ⟨v, a⟩ s₂ hwaits hstep hphase
    exact hphase.effect hcount (effect_of_step hw hwaits hstep)
  · rintro ⟨v, a⟩ hx rfl
    exact hlog a (mem_logOf.mpr hx)

theorem Quiet.convert (hw : peers w = .requestor) (h : Quiet w s) {selection target property : Atom}
    (hstep : Steps t peers s (w, .xRequest (.convertSelection w selection target property)) s') :
    Phase peers (s.1.owner selection) ⟨0, w, selection, target, property⟩ s' := by
  let req : SelectionRequest := ⟨0, w, selection, target, property⟩
  cases hstep with
  | @step server todo _ _ rest hallows hstep =>
  have hsame : Function.update todo w rest = todo := by
    rw [hw] at hstep
    generalize htodo : todo w = before at hstep
    cases hstep with
    | aside h => cases h
    | convert => rw [← htodo, Function.update_eq_self]
  rw [hsame]
  change Phase peers (server.owner selection) req (server.convert w selection target property, todo)
  rcases howner : server.owner selection with _ | v
  · have hserver : server.convert w selection target property =
        server.enqueue w (.selectionNotify ⟨0, w, selection, target, 0⟩) := by
      rw [XServer.convert, howner]
    rw [hserver]
    refine .notified (n := ⟨0, w, selection, target, 0⟩) (fun u => ?_) h.due ?_
      fun hn => absurd rfl hn
    · exact (queue_enqueue (.inr rfl)).trans (h.wanted u)
    · rw [X11.told, XServer.enqueue_queue_self, List.filterMap_append]
      exact congrArg (· ++ _) h.told
  · have hserver : server.convert w selection target property =
        server.enqueue v (.selectionRequest req) := by
      rw [XServer.convert, howner]
    rw [hserver]
    refine .pending rfl ?_ (fun u hu => ?_) h.due ?_
    · rw [X11.wanted, XServer.enqueue_queue_self, List.filterMap_append]
      refine (congrArg (· ++ _) (h.wanted v)).trans ?_
      simp [asks, req]
    · exact (queue_enqueue (.inl hu.symm)).trans (h.wanted u)
    · exact (queue_enqueue (.inr rfl)).trans h.told

/-- The notification that the window takes is the answer to its request. -/
theorem Phase.notify {o : Option Window} {req : SelectionRequest}
    (hw : peers req.requestor = .requestor) (h : Phase peers o req s) {n : SelectionNotify}
    (hstep : Steps t peers s
      (req.requestor, .call .xPollForEvent (.xPollForEvent (some (.selectionNotify n)))) s')
    (hn : n.property ≠ 0) : Quiet req.requestor s' ∧
      ∃ v ctx, o = some v ∧ peers v = .owner ctx ∧ ¬ Refuses ctx req ∧ Holds ctx req s'.1 := by
  cases hstep with
  | @step server todo _ _ rest hallows hstep =>
  have hsame : Function.update todo req.requestor rest = todo := by
    rw [hw] at hstep
    generalize htodo : todo req.requestor = before at hstep
    cases hstep with
    | aside h => simp [Action.Aside, Call.takes] at h
    | poll => rw [← htodo, Function.update_eq_self]
  have hdelivers : server.Delivers req.requestor (.selectionNotify n) := hallows _ rfl
  have hqueue := hdelivers.queue (by simp)
  have htaken : told req.requestor (server, todo) =
      n :: told req.requestor (server.dequeue req.requestor (.selectionNotify n), todo) := by
    rw [told, hqueue, List.filterMap_cons_some (show notice (.selectionNotify n) = some n from rfl)]
    rfl
  have hnone : told req.requestor (server, todo) ≠ [] := by
    rw [htaken]
    exact List.cons_ne_nil _ _
  rw [hsame]
  change Quiet req.requestor (server.dequeue req.requestor (.selectionNotify n), todo) ∧
    ∃ v ctx, o = some v ∧ peers v = .owner ctx ∧ ¬ Refuses ctx req ∧
      Holds ctx req (server.dequeue req.requestor (.selectionNotify n))
  cases h with
  | lost h => exact absurd h.told hnone
  | pending _ _ _ _ htold => exact absurd htold hnone
  | taken _ _ _ _ _ htold => exact absurd htold hnone
  | stored _ _ _ _ _ htold => exact absurd htold hnone
  | notified hwanted hdue htold hanswer =>
      obtain ⟨rfl, hrest⟩ := List.cons.inj (htaken.symm.trans htold)
      obtain ⟨v, ctx, hv, hpeer, hkept, hholds⟩ := hanswer hn
      refine ⟨⟨fun u => ?_, hdue, hrest⟩, v, ctx, hv, hpeer, hkept, hholds.of_stored ?_⟩
      · exact ((queue_dequeue hdelivers).2 (.inr rfl)).trans (hwanted u)
      · exact congrFun XServer.dequeue_stored _

/-- A window that asks, waits and is notified of a property has it from the client that owned the
selection when the server passed the request on. -/
theorem Quiet.conversation (hcount : ∀ v ctx, peers v = .owner ctx → ctx.targets.length < 2 ^ 32)
    (hw : peers w = .requestor) (h : Quiet w s) (hpath : Path (Steps t peers) s log s')
    {selection target property : Atom} {waits : List Action} {n : SelectionNotify}
    (hlog : logOf w log = .xRequest (.convertSelection w selection target property) ::
      (waits ++ [.call .xPollForEvent (.xPollForEvent (some (.selectionNotify n)))]))
    (hwaits : ∀ a ∈ waits, Waits a) (hn : n.property ≠ 0) :
    ∃ before after v ctx,
      log = before ++ (w, .xRequest (.convertSelection w selection target property)) :: after ∧
      ((XServer.environment t).run s.1 before).owner selection = some v ∧ peers v = .owner ctx ∧
      ¬ Refuses ctx ⟨0, w, selection, target, property⟩ ∧
      Holds ctx ⟨0, w, selection, target, property⟩ s'.1 ∧ Quiet w s' := by
  have hnone : ∀ {log : List (Window × Action)}, logOf w log = [] → ∀ a ∈ logOf w log, Waits a :=
    fun h => by
      rw [h]
      exact List.forall_mem_nil _
  obtain ⟨before, after, rfl, hbefore, hafter⟩ := logOf_eq_cons hlog
  obtain ⟨waiting, rest, rfl, hwaiting, hrest⟩ := logOf_eq_append hafter
  obtain ⟨others, last, rfl, hothers, hlast⟩ := logOf_eq_cons hrest
  obtain ⟨s₁, hpath₁, hpath⟩ := hpath.split
  obtain ⟨s₂, hconvert, hpath⟩ := hpath.uncons
  obtain ⟨s₃, hpath₃, hpath⟩ := hpath.split
  obtain ⟨s₄, hpath₄, hpath⟩ := hpath.split
  obtain ⟨s₅, hnotify, hpath₅⟩ := hpath.uncons
  have hquiet₁ := (h.path hw hpath₁ (hnone hbefore)).1
  have hphase₂ := hquiet₁.convert hw hconvert
  have hphase₃ := hphase₂.path hcount hw hpath₃ (hwaiting.symm ▸ hwaits)
  have hphase₄ := hphase₃.path hcount hw hpath₄ (hnone hothers)
  obtain ⟨hquiet₅, v, ctx, hv, hpeer, hkept, hholds⟩ := hphase₄.notify hw hnotify hn
  obtain ⟨hquiet, hstored⟩ := hquiet₅.path hw hpath₅ (hnone hlast)
  refine ⟨before, _, v, ctx, rfl, ?_, hpeer, hkept, hholds.of_stored hstored, hquiet⟩
  rw [← joint_run hpath₁]
  exact hv

open PropertyServer in
/-- The window is given what it has, by the rule of GetProperty. -/
theorem Quiet.read (hw : peers w = .requestor) (h : Quiet w s) {name : Atom} {offset length : UInt32}
    {r : Option PropertyReply}
    (hstep : Steps t peers s (w, .call (.xGetProperty w name offset length) (.xGetProperty r)) s') :
    Quiet w s' ∧ r = some (getProperty ⟨s.1.stored w name, 0⟩ offset length).1 ∧
      s'.1.stored w name = (getProperty ⟨s.1.stored w name, 0⟩ offset length).2.stored := by
  cases hstep with
  | @step server todo _ _ rest hallows hstep =>
  have hsame : Function.update todo w rest = todo := by
    rw [hw] at hstep
    generalize htodo : todo w = before at hstep
    cases hstep with
    | aside h => simp [Action.Aside, Call.takes] at h
    | read => rw [← htodo, Function.update_eq_self]
  rw [hsame]
  exact ⟨⟨h.wanted, h.due, h.told⟩, hallows, XServer.put_stored_self⟩

open PropertyServer in
/-- The window reads its own property, which no one else changes meanwhile. -/
theorem Quiet.exchanged (hw : peers w = .requestor) (h : Quiet w s)
    (hpath : Path (Steps t peers) s log s') {name : Atom}
    (hlog : ∀ a ∈ logOf w log, ∃ offset length r,
      a = .call (.xGetProperty w name offset length) (.xGetProperty r)) (n : ℕ) :
    Quiet w s' ∧ ∃ n', Exchanged ⟨s.1.stored w name, n⟩ (logOf w log) ⟨s'.1.stored w name, n'⟩ := by
  induction hpath generalizing n with
  | nil => exact ⟨h, n, .nil _⟩
  | @cons s s₁ s' x log hstep hrest ih =>
      obtain ⟨v, a⟩ := x
      by_cases hv : v = w
      · subst hv
        rw [logOf_cons_self] at hlog ⊢
        obtain ⟨⟨offset, length, r, rfl⟩, htail⟩ := List.forall_mem_cons.mp hlog
        obtain ⟨hquiet, rfl, hstored⟩ := h.read hw hstep
        have hcount : ∃ n', (getProperty ⟨s.1.stored v name, n⟩ offset length).2 =
            ⟨s₁.1.stored v name, n'⟩ := by
          rw [hstored]
          unfold getProperty
          dsimp only
          split_ifs
          · exact ⟨n + 1, rfl⟩
          · exact ⟨n, rfl⟩
        obtain ⟨n₁, hserver⟩ := hcount
        obtain ⟨hquiet', n', hexchanged⟩ := ih hquiet htail n₁
        exact ⟨hquiet', n', .call v name offset length (hserver ▸ hexchanged)⟩
      · rw [logOf_cons_of_ne hv] at hlog ⊢
        obtain ⟨hquiet, hstored⟩ := h.effect (effect_of_step hw (fun heq => absurd heq hv) hstep)
        rw [← hstored]
        exact ih hquiet hlog n

end

end X11

end WlClip
