import WlClip.ConnectionSteps
import WlClip.CopyScript
import WlClip.HandcraftedSteps
import Mathlib.Data.List.Infix

/-!
# The descriptors of the requests for a payload

Descriptors come out of band and may run ahead of the messages that they are attached to. Between
two messages the descriptors waiting are those received without the ones taken, and one was taken
for each request handed over, so that the next request is served on the next descriptor.
-/

open ScriptedProgram ScriptedProgram.Prog

namespace WlClip

open Message (framing)

namespace Handcrafted

/-! ## The compositor -/

/-- A message and the descriptor attached to it, if there is one. -/
structure Sent where
  message : Message
  fd : Option Int

/-- Asks the source, object 7, for the payload. -/
abbrev IsSend (m : Message) : Prop := m.objectId = 7 ∧ m.opcode = Zdcs.kEvSend

/-- Takes the id of the source back. -/
abbrev Deletes (m : Message) : Prop :=
  m.objectId = kDisplayId ∧ m.opcode = WlDisplay.kEvDeleteId ∧
    (Reader.new m.objectId m.opcode m.payload).u32.1 = 7

structure Conforming (sent : List Sent) : Prop where
  attached : ∀ s ∈ sent, s.fd.isSome = true ↔ IsSend s.message
  valid : ∀ fd ∈ sent.filterMap Sent.fd, 0 ≤ fd
  alive : ∀ s ∈ sent, ¬ Deletes s.message

/-- What the run that logged `trace` has received is a part of `sent`: each descriptor came with
the last byte of its message at the latest, and the source was addressed when it was asked for. -/
structure Carried (sent : List Sent) (trace : List Action) : Prop where
  bytes : trace.flatMap Action.received <+: framing.stream (sent.map Sent.message)
  fds : trace.flatMap Action.receivedFds <+: sent.filterMap Sent.fd
  timely : ∀ log arrived, log <+: trace → arrived <+: sent →
    framing.stream (arrived.map Sent.message) <+: log.flatMap Action.received →
    (arrived.filterMap Sent.fd).length ≤ (log.flatMap Action.receivedFds).length
  answered : ∀ log arrived s, log <+: trace → arrived ++ [s] <+: sent →
    framing.stream ((arrived ++ [s]).map Sent.message) <+: log.flatMap Action.received →
    s.message.objectId = 7 → (Request.createDataSource 7).encode 5 ∈ log.flatMap Action.written

variable {sent : List Sent} {log trace : List Action}

theorem Carried.upTo (h : Carried sent trace) (hlog : log <+: trace) : Carried sent log where
  bytes := (hlog.flatMap _).trans h.bytes
  fds := (hlog.flatMap _).trans h.fds
  timely log' arrived hlog' := h.timely log' arrived (hlog'.trans hlog)
  answered log' arrived s hlog' := h.answered log' arrived s (hlog'.trans hlog)

theorem carried_of_takes (hbytes : trace.flatMap Action.received <+:
      framing.stream (sent.map Sent.message))
    (hfds : trace.flatMap Action.receivedFds <+: sent.filterMap Sent.fd)
    (hparts : ∀ i < trace.length + 1, ∀ j < sent.length + 1,
      framing.stream ((sent.take j).map Sent.message) <+: (trace.take i).flatMap Action.received →
      ((sent.take j).filterMap Sent.fd).length ≤ ((trace.take i).flatMap Action.receivedFds).length ∧
        ((sent.take j).getLast?.any (fun s => s.message.objectId = 7) = true →
          ((trace.take i).flatMap Action.written).contains
            ((Request.createDataSource 7).encode 5) = true)) :
    Carried sent trace := by
  refine ⟨hbytes, hfds, fun log arrived hlog harrived hpart => ?_,
    fun log arrived s hlog harrived hpart hobj => ?_⟩
  · have hlen := Nat.lt_succ_of_le hlog.length_le
    have hlen' := Nat.lt_succ_of_le harrived.length_le
    rw [List.prefix_iff_eq_take.mp hlog, List.prefix_iff_eq_take.mp harrived] at hpart ⊢
    exact (hparts _ hlen _ hlen' hpart).1
  · have hlen := Nat.lt_succ_of_le hlog.length_le
    have hlen' := Nat.lt_succ_of_le harrived.length_le
    have hlast : (arrived ++ [s]).getLast?.any (fun s => s.message.objectId = 7) = true := by
      simp [hobj]
    rw [List.prefix_iff_eq_take.mp hlog] at hpart ⊢
    rw [List.prefix_iff_eq_take.mp harrived] at hpart hlast
    exact List.contains_iff_mem.mp ((hparts _ hlen _ hlen' hpart).2 hlast)

theorem Conforming.count (h : Conforming sent) {arrived : List Sent} (harrived : arrived <+: sent) :
    (arrived.filterMap Sent.fd).length = (arrived.map Sent.message).countP fun m => IsSend m := by
  have hattached : ∀ s ∈ arrived, s.fd.isSome = true ↔ IsSend s.message :=
    fun s hs => h.attached s (harrived.subset hs)
  clear harrived
  induction arrived with
  | nil => rfl
  | cons s arrived ih =>
      have hs := hattached s List.mem_cons_self
      have hrest := ih fun s hs => hattached s (List.mem_cons_of_mem _ hs)
      rw [List.map_cons, List.countP_cons, ← hrest]
      rcases hfd : s.fd with _ | fd
      · rw [hfd] at hs
        simp [hfd, ← hs]
      · rw [hfd] at hs
        simp [hfd, ← hs]

/-! ## What is served -/

/-- Hands a request for the payload over, begins a transfer or writes. -/
inductive Serves : Action → Prop
  | handed (payload : List UInt8) : Serves (.dispatch 7 Zdcs.kEvSend payload)
  | begun (fd : Int) (data : List UInt8) : Serves (.serveSend fd data)
  | wrote (fd : Int) (bytes : List UInt8) (r : Reply) : Serves (.call (.write fd bytes) r)

theorem serves_dispatch {objectId : UInt32} {opcode : UInt16} {payload : List UInt8}
    (h : Serves (.dispatch objectId opcode payload)) : objectId = 7 ∧ opcode = Zdcs.kEvSend := by
  cases h with
  | handed payload => exact ⟨rfl, rfl⟩

/-- Each request handed over is at once served on the next of the descriptors. -/
inductive ServedInOrder (data : List UInt8) : List Int → List Action → Prop
  | start : ServedInOrder data [] []
  | other {fds log} (a : Action) (ha : ¬ Serves a) (h : ServedInOrder data fds log) :
      ServedInOrder data fds (log ++ [a])
  | request {fds log calls out e} (payload : List UInt8) (fd : Int)
      (htransfer : Process.Transfer fd data calls out e) (h : ServedInOrder data fds log) :
      ServedInOrder data (fds ++ [fd])
        (log ++ .dispatch 7 Zdcs.kEvSend payload :: .serveSend fd data :: calls)

/-- The same, where the last transfer need not be over. -/
inductive ServedSoFar (data : List UInt8) : List Int → List Action → Prop
  | whole {fds log} (h : ServedInOrder data fds log) : ServedSoFar data fds log
  | cut {fds log calls} (payload : List UInt8) (fd : Int)
      (htransfer : Process.Unfinished fd data calls) (h : ServedInOrder data fds log) :
      ServedSoFar data (fds ++ [fd])
        (log ++ .dispatch 7 Zdcs.kEvSend payload :: .serveSend fd data :: calls)

variable {data : List UInt8} {fds : List Int}

theorem not_serves_close (fd : Int) : ¬ Serves (.close fd) := by
  intro h
  cases h

theorem ServedInOrder.append (h : ServedInOrder data fds log) {more : List Action}
    (hmore : ∀ a ∈ more, ¬ Serves a) : ServedInOrder data fds (log ++ more) := by
  induction more generalizing log with
  | nil => rwa [List.append_nil]
  | cons a more ih =>
      have hstep := ServedInOrder.other a (hmore a List.mem_cons_self) h
      rw [List.append_cons]
      exact ih hstep fun b hb => hmore b (List.mem_cons_of_mem _ hb)

/-! ## What the connection operations do -/

/-- What was received since is in the buffers, and nothing was taken out. -/
structure TakesIn (c c' : Connection) : Prop where
  log : ∃ log, c'.trace = c.trace ++ log ∧ (∀ a ∈ log, ¬ Serves a ∧ a.dispatched = []) ∧
    c'.inBuf = c.inBuf ++ log.flatMap Action.received ∧
    c'.inFds = c.inFds ++ log.flatMap Action.receivedFds

instance : IsPreorder Connection TakesIn where
  refl _ := ⟨[], by simp⟩
  trans _ _ _ h h' := by
    obtain ⟨log, htrace, hlog, hbuf, hfds⟩ := h.log
    obtain ⟨log', htrace', hlog', hbuf', hfds'⟩ := h'.log
    refine ⟨log ++ log', ?_, ?_, ?_, ?_⟩
    · rw [htrace', htrace, List.append_assoc]
    · exact fun a ha => (List.mem_append.mp ha).elim (hlog a) (hlog' a)
    · rw [hbuf', hbuf, List.flatMap_append, List.append_assoc]
    · rw [hfds', hfds, List.flatMap_append, List.append_assoc]

theorem takesIn_of_moves {α : Type} {A : Action → Prop} {p : Prog Halt Connection α}
    (h : Within (Connection.Moves A) p) (hA : ∀ a, A a → ¬ Serves a ∧ a.dispatched = []) :
    Within TakesIn p := by
  intro c
  obtain ⟨log, htrace, hlog, hbuf, hfds, -⟩ := (h c).log
  exact ⟨log, htrace, fun a ha => hA a (hlog a ha), hbuf, hfds⟩

theorem flush_takesIn : Within TakesIn Connection.flush :=
  takesIn_of_moves Connection.flush_moves fun _ ha => by
    cases ha <;> exact ⟨nofun, rfl⟩

/-- An operation of the connection other than a flush. -/
theorem carries_takesIn {α : Type} {p : Prog Halt Connection α}
    (h : Within (Connection.Moves Action.Carries) p) : Within TakesIn p :=
  takesIn_of_moves h fun _ ha => by
    cases ha <;> exact ⟨nofun, rfl⟩

/-! ## Between two messages -/

/-- The messages `ds` were handed over and the descriptors `fds` taken; the buffers hold the rest
of what was received. -/
structure Taken {σ : Type} (ds : List Message) (fds : List Int) (cl : Client σ) : Prop where
  dispatched : cl.dispatched = ds.map Message.delivery
  bytes : cl.trace.flatMap Action.received = framing.stream ds ++ cl.inBuf
  fds : cl.trace.flatMap Action.receivedFds = fds ++ cl.inFds

variable {ds : List Message} {cl cl' : Client CopyState} {m : Message}

theorem Taken.takesIn (h : Taken ds fds cl) (htakes : TakesIn cl.toConnection cl'.toConnection) :
    Taken ds fds cl' := by
  obtain ⟨log, htrace, hlog, hbuf, hfds⟩ := htakes.log
  have hnil : log.flatMap Action.dispatched = [] :=
    List.flatMap_eq_nil_iff.mpr fun a ha => (hlog a ha).2
  refine ⟨?_, ?_, ?_⟩
  · rw [← h.dispatched, Process.dispatched, Process.observe, htrace, List.flatMap_append, hnil,
      List.append_nil]
    rfl
  · rw [htrace, List.flatMap_append, h.bytes, hbuf, List.append_assoc]
  · rw [htrace, List.flatMap_append, h.fds, hfds, List.append_assoc]

theorem Taken.arrived (h : Taken ds fds cl) (hcarried : Carried sent cl.trace) :
    ∃ arrived, arrived.map Sent.message = ds ∧ arrived <+: sent := by
  obtain ⟨t, ht⟩ := hcarried.bytes
  rw [h.bytes, List.append_assoc] at ht
  obtain ⟨rest, hsent, -⟩ := framing.stream_append_eq ht
  obtain ⟨arrived, more, rfl, harrived, -⟩ := List.map_eq_append_iff.mp hsent
  exact ⟨arrived, harrived, more, rfl⟩

theorem Taken.next (h : Taken ds fds cl) (hcarried : Carried sent cl.trace)
    (hm : headMessage cl.inBuf = some m) : ∃ s, s.message = m ∧
      ∃ arrived, arrived.map Sent.message = ds ∧ arrived ++ [s] <+: sent ∧
        framing.stream ((arrived ++ [s]).map Sent.message) <+: cl.trace.flatMap Action.received := by
  obtain ⟨t, ht⟩ := hcarried.bytes
  rw [h.bytes, List.append_assoc] at ht
  obtain ⟨rest, hsent, -⟩ := framing.stream_first ht hm
  obtain ⟨arrived, more, rfl, harrived, hmore⟩ := List.map_eq_append_iff.mp hsent
  obtain ⟨s, more, rfl, rfl, -⟩ := List.map_eq_cons_iff.mp hmore
  refine ⟨s, rfl, arrived, harrived, ⟨more, by simp⟩, ?_⟩
  obtain ⟨buf, hbuf⟩ := framing.first_prefix _ _ hm
  rw [h.bytes, List.map_append, harrived, framing.stream_append, ← hbuf, ← List.append_assoc]
  exact ⟨buf, by simp⟩

/-- Nothing was served, and there is no source. -/
structure Booting (cl : Client CopyState) : Prop where
  taken : ∃ ds, Taken ds [] cl
  idle : ∀ a ∈ cl.trace, Serves a → ∃ payload, a = .dispatch 7 Zdcs.kEvSend payload
  source : ∀ id, cl.objects id ≠ .source
  display : ∀ id, cl.objects id = .display → id = kDisplayId

theorem Booting.takesIn (h : Booting cl) (htakes : TakesIn cl.toConnection cl'.toConnection)
    (hobjects : cl'.objects = cl.objects) : Booting cl' := by
  obtain ⟨log, htrace, hlog, -, -⟩ := htakes.log
  refine ⟨h.taken.imp fun _ htaken => htaken.takesIn htakes, ?_, ?_, ?_⟩
  · intro a ha hserves
    rw [htrace] at ha
    rcases List.mem_append.mp ha with ha | ha
    · exact h.idle a ha hserves
    · exact absurd hserves (hlog a ha).1
  · rw [hobjects]
    exact h.source
  · rw [hobjects]
    exact h.display

theorem Taken.deliver (h : Taken ds fds cl) (hm : headMessage cl.inBuf = some m)
    {fds' : List Int} (more : List Action)
    (htrace : cl'.trace = cl.trace ++ .dispatch m.objectId m.opcode m.payload :: more)
    (hmore : ∀ a ∈ more, a.dispatched = [] ∧ a.received = [] ∧ a.receivedFds = [])
    (hbuf : cl'.inBuf = cl.inBuf.drop m.size) (hfds : fds ++ cl.inFds = fds' ++ cl'.inFds) :
    Taken (ds ++ [m]) fds' cl' := by
  have hnil {β : Type} {f : Action → List β} (hf : ∀ a ∈ more, f a = []) : more.flatMap f = [] :=
    List.flatMap_eq_nil_iff.mpr hf
  obtain ⟨rest, hrest⟩ := framing.first_prefix _ _ hm
  have hdrop : cl.inBuf = m.bytes ++ cl.inBuf.drop m.size := by
    rw [← hrest, ← m.length_bytes]
    exact congrArg (m.bytes ++ ·) List.drop_left.symm
  refine ⟨?_, ?_, ?_⟩
  · have hdispatched := h.dispatched
    simp only [Process.dispatched, Process.observe] at hdispatched ⊢
    rw [htrace, List.flatMap_append, List.flatMap_cons, hnil fun a ha => (hmore a ha).1, hdispatched,
      List.map_append]
    rfl
  · have hreceived : (Action.dispatch m.objectId m.opcode m.payload).received = [] := rfl
    have hone : framing.stream [m] = m.bytes := List.append_nil _
    rw [htrace, List.flatMap_append, List.flatMap_cons, hnil fun a ha => (hmore a ha).2.1, h.bytes,
      framing.stream_append, hbuf, hreceived, hone, List.append_nil, List.append_nil,
      List.append_assoc, ← hdrop]
  · rw [htrace, List.flatMap_append, List.flatMap_cons, hnil fun a ha => (hmore a ha).2.2, h.fds, hfds]
    simp [Action.receivedFds, Action.reply]

theorem onConn_booting {α : Type} {p : Prog Halt Connection α} (h : Within TakesIn p) :
    Keeps Booting (Client.onConn p) := by
  apply (Client.onConn_within h).keeps
  rintro cl cl' ⟨htakes, hlocals⟩ hcl
  exact hcl.takesIn htakes (congrArg (fun l : Client.Local CopyState => l.1) hlocals)

/-- The client after a message for another object than the source. -/
structure Bypassed (m : Message) (cl cl' : Client CopyState) : Prop where
  trace : cl'.trace = cl.trace ++ [.dispatch m.objectId m.opcode m.payload]
  inBuf : cl'.inBuf = cl.inBuf.drop m.size
  inFds : cl'.inFds = cl.inFds
  data : cl'.st.data = cl.st.data
  objects : cl'.objects = cl.objects ∨
    cl.objects m.objectId = .display ∧ m.opcode = WlDisplay.kEvDeleteId ∧
      cl'.objects = (cl.forget (Reader.new m.objectId m.opcode m.payload).u32.1).objects

theorem deliver_bypassed (hother : cl.objects m.objectId ≠ .source) :
    ∃ cl', Client.deliver copyDispatcher m cl = (.ok (), cl') ∧ Bypassed m cl cl' := by
  let r := Reader.new m.objectId m.opcode m.payload
  have hhandle : copyDispatcher.handle m.objectId m.opcode r (cl.logged m) =
      (.ok (), common m.objectId m.opcode r (cl.logged m)) := handleCopy_other hother
  have hbypass : Bypassed m cl
      ((common m.objectId m.opcode r (cl.logged m)).consumed m.size) := by
    unfold common
    have hobjects : (cl.logged m).objects m.objectId = cl.objects m.objectId := rfl
    rw [hobjects]
    cases hk : cl.objects m.objectId with
    | display =>
        dsimp only
        split_ifs with hop
        · exact ⟨rfl, rfl, rfl, rfl, .inr ⟨hk, hop, rfl⟩⟩
        · exact ⟨rfl, rfl, rfl, rfl, .inl rfl⟩
    | registry | callback | seat => dsimp only; split_ifs <;> exact ⟨rfl, rfl, rfl, rfl, .inl rfl⟩
    | _ => exact ⟨rfl, rfl, rfl, rfl, .inl rfl⟩
  exact ⟨_, Client.deliver_ok hhandle, hbypass⟩

theorem Bypassed.object (h : Bypassed m cl cl') {id : UInt32} (hid : cl'.objects id ≠ .unknown) :
    cl'.objects id = cl.objects id := by
  rcases h.objects with hsame | ⟨-, -, hforget⟩
  · rw [hsame]
  · rw [hforget] at hid ⊢
    simp only [Client.forget, Client.setKind] at hid ⊢
    split_ifs at hid ⊢
    · exact absurd rfl hid
    · rfl

theorem Bypassed.taken (h : Bypassed m cl cl') (htaken : Taken ds fds cl)
    (hm : headMessage cl.inBuf = some m) : Taken (ds ++ [m]) fds cl' :=
  htaken.deliver hm [] h.trace (List.forall_mem_nil _) h.inBuf (congrArg _ h.inFds.symm)

theorem deliver_booting (m : Message) :
    Triple (fun cl => Booting cl ∧ headMessage cl.inBuf = some m)
      (Client.deliver copyDispatcher m) (fun _ => Booting) (fun _ => Booting) := by
  rintro cl ⟨h, hm⟩
  obtain ⟨cl', hdeliver, hbypass⟩ := deliver_bypassed (h.source m.objectId)
  obtain ⟨ds, htaken⟩ := h.taken
  rw [hdeliver]
  refine ⟨⟨_, hbypass.taken htaken hm⟩, ?_, ?_, ?_⟩
  · intro a ha hserves
    rw [hbypass.trace] at ha
    rcases List.mem_append.mp ha with ha | ha
    · exact h.idle a ha hserves
    · obtain rfl := List.mem_singleton.mp ha
      obtain ⟨hobj, hop⟩ := serves_dispatch hserves
      exact ⟨m.payload, by rw [hobj, hop]⟩
  · intro id hid
    exact h.source id ((hbypass.object (by rw [hid]; decide)).symm.trans hid)
  · intro id hid
    exact h.display id ((hbypass.object (by rw [hid]; decide)).symm.trans hid)

theorem booting_stable : Stable copyDispatcher Booting fun _ => Booting where
  flush := onConn_booting flush_takesIn
  waitReadable := onConn_booting (carries_takesIn (Connection.waitReadable_moves _))
  pump := onConn_booting (carries_takesIn Connection.pump_moves)
  deliver := deliver_booting
  halts _ _ h := h
  queue bytes := onConn_booting (carries_takesIn (Connection.outBytes_moves bytes))
  allocId _ h := h.takesIn (refl _) rfl
  register id k hdisplay hspecial := by
    apply Triple.update
    intro cl h
    refine ⟨h.taken.imp fun _ htaken => htaken.takesIn (refl _), h.idle, ?_, ?_⟩
    · intro i hi
      simp only [Client.setKind] at hi
      split_ifs at hi
      · exact hspecial (.inl hi)
      · exact h.source i hi
    · intro i hi
      simp only [Client.setKind] at hi
      split_ifs at hi with hid
      · exact hid.trans (hdisplay hi)
      · exact h.display i hi
  modifySession f := Triple.update _ fun _ h => h.takesIn (refl _) rfl

/-! ## The source is announced -/

/-- In a run on the compositor's stream each request handed over was served, and the descriptors
left are those of the requests to come. -/
structure Paired (sent : List Sent) (data : List UInt8) (cl : Client CopyState) : Prop where
  pairs : Carried sent cl.trace → ∃ ds fds, Taken ds fds cl ∧ ServedInOrder data fds cl.trace ∧
    (ds.countP fun m => IsSend m) = fds.length
  display : ∀ id, cl.objects id = .display → id = kDisplayId

theorem Paired.takesIn (h : Paired sent data cl) (htakes : TakesIn cl.toConnection cl'.toConnection)
    (hobjects : ∀ id, cl'.objects id = .display → cl.objects id = .display) :
    Paired sent data cl' := by
  refine ⟨fun hcarried => ?_, fun id hid => h.display id (hobjects id hid)⟩
  obtain ⟨log, htrace, hlog, -, -⟩ := htakes.log
  obtain ⟨ds, fds, htaken, hserved, hcount⟩ := h.pairs (hcarried.upTo ⟨log, htrace.symm⟩)
  refine ⟨ds, fds, htaken.takesIn htakes, ?_, hcount⟩
  rw [htrace]
  exact hserved.append fun a ha => (hlog a ha).1

theorem createDataSource_unspoken {F : Frame CopyState} (h : Spoken F (fun _ => []) cl) :
    (Request.createDataSource 7).encode 5 ∉ cl.written := by
  obtain ⟨sg, mg, rs, n, ids, h, hrs⟩ := h
  rw [h.written]
  intro hmem
  obtain ⟨⟨target, r⟩, ha, henc⟩ := List.mem_map.mp hmem
  have hboot : Accepted .initial (bootScript sg mg ++ []) := accepted_boot sg mg ⟨nofun, rfl⟩
  have hfits := (hboot.cut hrs).1
  have hcreate : (Request.createDataSource 7).Fits := by decide
  have hmessages : (r.message target).bytes ++ [] =
      ((Request.createDataSource 7).message 5).bytes ++ [] := by
    rw [← Request.encode_eq target (hfits _ ha), ← Request.encode_eq 5 hcreate, henc]
  have htarget := congrArg LittleEndian.loadU32 hmessages
  rw [Message.loadU32_bytes, Message.loadU32_bytes, Request.objectId_message,
    Request.objectId_message] at htarget
  have hmem := hrs.subset ha
  simp [bootScript, htarget] at hmem

theorem Booting.paired {F : Frame CopyState} (h : Booting cl) (hspoken : Spoken F (fun _ => []) cl) :
    Paired sent data cl := by
  refine ⟨fun hcarried => ?_, h.display⟩
  obtain ⟨ds, htaken⟩ := h.taken
  have hnone : ∀ m ∈ ds, m.objectId ≠ 7 := by
    intro m hm hobj
    obtain ⟨before, after, rfl⟩ := List.append_of_mem hm
    obtain ⟨arrived, harrived, hsent⟩ := htaken.arrived hcarried
    obtain ⟨first, more, rfl, hfirst, hmore⟩ := List.map_eq_append_iff.mp harrived
    obtain ⟨s, more, rfl, rfl, -⟩ := List.map_eq_cons_iff.mp hmore
    refine createDataSource_unspoken hspoken (hcarried.answered cl.trace first s List.prefix_rfl
      ?_ ?_ hobj)
    · exact .trans ⟨more, by simp⟩ hsent
    · rw [htaken.bytes, List.map_append, hfirst]
      exact ⟨framing.stream after ++ cl.inBuf, by simp⟩
  have hidle : ∀ a ∈ cl.trace, ¬ Serves a := by
    intro a ha hserves
    obtain ⟨payload, rfl⟩ := h.idle a ha hserves
    have hmem : ((7, Zdcs.kEvSend, payload) : Delivery) ∈ cl.dispatched :=
      List.mem_flatMap.mpr ⟨_, ha, List.mem_singleton.mpr rfl⟩
    rw [htaken.dispatched] at hmem
    obtain ⟨m, hm, hdelivery⟩ := List.mem_map.mp hmem
    exact hnone m hm (congrArg Prod.fst hdelivery)
  refine ⟨ds, [], htaken, ServedInOrder.start.append hidle, ?_⟩
  exact List.countP_eq_zero.mpr fun m hm hsend => hnone m hm (of_decide_eq_true hsend).1

/-! ## The requests are answered -/

structure Answering (sent : List Sent) (data : List UInt8) (cl : Client CopyState) : Prop
    extends Paired sent data cl where
  source : Carried sent cl.trace → ∀ id, cl.objects id = .source ↔ id = 7
  bytes : cl.st.data.bytes = data

/-- What a run on the compositor's stream comes to. -/
def Outcome (sent : List Sent) (data : List UInt8) (p : Process) : Prop :=
  Carried sent p.trace → p.dispatched <+: sent.map (fun s => s.message.delivery) ∧
    ∃ fds, fds <+: sent.filterMap Sent.fd ∧ ServedSoFar data fds p.trace

theorem Taken.delivered (h : Taken ds fds cl) (hcarried : Carried sent cl.trace) :
    cl.dispatched <+: sent.map (fun s => s.message.delivery) ∧ fds <+: sent.filterMap Sent.fd := by
  obtain ⟨arrived, rfl, hsent⟩ := h.arrived hcarried
  refine ⟨?_, .trans ⟨cl.inFds, h.fds.symm⟩ hcarried.fds⟩
  rw [h.dispatched, List.map_map]
  exact hsent.map _

theorem Paired.outcome (h : Paired sent data cl) : Outcome sent data cl.toProcess := by
  intro hcarried
  obtain ⟨ds, fds, htaken, hserved, -⟩ := h.pairs hcarried
  obtain ⟨hdispatched, hfds⟩ := htaken.delivered hcarried
  exact ⟨hdispatched, fds, hfds, .whole hserved⟩

theorem Answering.descriptor (h : Answering sent data cl) (hsent : Conforming sent)
    (hcarried : Carried sent cl.trace) (hm : headMessage cl.inBuf = some m) (hsend : IsSend m) :
    ∃ fd rest, cl.inFds = fd :: rest ∧ 0 ≤ fd := by
  obtain ⟨ds, fds, htaken, -, hcount⟩ := h.pairs hcarried
  obtain ⟨s, rfl, arrived, rfl, harrived, hbytes⟩ := htaken.next hcarried hm
  have htimely := hcarried.timely cl.trace _ List.prefix_rfl harrived hbytes
  rw [hsent.count harrived, htaken.fds, List.map_append, List.countP_append, hcount] at htimely
  rcases hfds : cl.inFds with _ | ⟨fd, rest⟩
  · rw [hfds, List.append_nil] at htimely
    have hone : [s.message].countP (fun m => decide (IsSend m)) = 1 := by simp [hsend]
    rw [List.map_singleton, hone] at htimely
    omega
  · refine ⟨fd, rest, rfl, hsent.valid fd (hcarried.fds.subset ?_)⟩
    rw [htaken.fds, hfds]
    exact List.mem_append_right _ List.mem_cons_self

theorem Answering.bypassed (h : Answering sent data cl) (hsent : Conforming sent)
    (hcarried : Carried sent cl.trace) (hm : headMessage cl.inBuf = some m)
    (hother : cl.objects m.objectId ≠ .source) (hbypass : Bypassed m cl cl') :
    Answering sent data cl' := by
  have hsource := h.source hcarried
  have hobj : m.objectId ≠ 7 := fun hobj => hother ((hsource _).mpr hobj)
  obtain ⟨ds, fds, htaken, hserved, hcount⟩ := h.pairs hcarried
  obtain ⟨s, rfl, arrived, -, harrived, -⟩ := htaken.next hcarried hm
  have halive := hsent.alive s (harrived.subset (List.mem_append_right _ (List.mem_singleton.mpr rfl)))
  refine ⟨⟨fun _ => ⟨ds ++ [s.message], fds, hbypass.taken htaken hm, ?_, ?_⟩, ?_⟩, fun _ id => ?_,
    (congrArg CopyData.bytes hbypass.data).trans h.bytes⟩
  · rw [hbypass.trace]
    exact hserved.other _ fun hserves => hobj (serves_dispatch hserves).1
  · rw [List.countP_append, hcount]
    simp [hobj]
  · intro id hid
    exact h.display id ((hbypass.object (by rw [hid]; decide)).symm.trans hid)
  · rcases hbypass.objects with hsame | ⟨hdisplay, hop, hforget⟩
    · rw [hsame]
      exact hsource id
    · rw [hforget]
      simp only [Client.forget, Client.setKind]
      split_ifs with hid
      · simp only [false_iff]
        rintro rfl
        exact halive ⟨h.display _ hdisplay, hop, hid.symm⟩
      · exact hsource id

theorem plain_silent {a : Action} (h : a.Silent) :
    a.dispatched = [] ∧ a.received = [] ∧ a.receivedFds = [] := by
  cases h with
  | call c r hbytes hfds => exact ⟨rfl, hbytes, hfds⟩
  | close fd => exact ⟨rfl, rfl, rfl⟩

theorem begun_silent {fd : Int} {calls : List Action} (h : ∀ a ∈ calls, a.Silent) :
    ∀ a ∈ Action.serveSend fd data :: calls,
      a.dispatched = [] ∧ a.received = [] ∧ a.receivedFds = [] :=
  List.forall_mem_cons.mpr ⟨⟨rfl, rfl, rfl⟩, fun a ha => plain_silent (h a ha)⟩

theorem deliver_send (h : Answering sent data cl) (hcarried : Carried sent cl.trace)
    (hm : headMessage cl.inBuf = some m) (hsend : IsSend m) {fd : Int} {rest : List Int}
    (hfds : cl.inFds = fd :: rest) (hfd : 0 ≤ fd) :
    match Client.deliver copyDispatcher m cl with
      | (.ok _, cl') => Answering sent data cl'
      | (.error _, cl') => Outcome sent data cl'.toProcess := by
  obtain ⟨ds, fds, htaken, hserved, hcount⟩ := h.pairs hcarried
  have hsource : (cl.logged m).objects m.objectId = .source := (h.source hcarried _).mpr hsend.1
  have hhandle : copyDispatcher.handle m.objectId m.opcode
      (.new m.objectId m.opcode m.payload) (cl.logged m) = onSend (cl.logged m) := by
    refine (handleCopy_source hsource).trans ?_
    rw [if_pos hsend.2]
  have hbytes : (cl.logged m).st.data.bytes = data := h.bytes
  have hfds' : (cl.logged m).inFds = fd :: rest := hfds
  have htake : ∀ {q : Process} (st : CopyState) {calls : List Action}, (∀ a ∈ calls, a.Silent) →
      q.trace = (cl.logged m).trace ++ .serveSend fd data :: calls →
      Taken (ds ++ [m]) (fds ++ [fd])
        (({ cl.logged m with toProcess := q, inFds := rest, st := st } : Client _).consumed
          m.size) := by
    intro q st calls hcalls htrace
    refine htaken.deliver hm (.serveSend fd data :: calls) (htrace.trans (by simp [Client.logged]))
      (begun_silent hcalls) rfl ?_
    rw [hfds]
    exact List.append_cons fds fd rest
  have hrun := Process.serveSend_transfers fd data (cl.logged m).trace (cl.logged m).toProcess rfl
  rw [Client.deliver_eq, hhandle, onSend_descriptor hfds' hfd, hbytes]
  rcases hr : Process.serveSend fd data (cl.logged m).toProcess with ⟨e | u, q⟩ <;> rw [hr] at hrun
  · obtain ⟨calls, hunfinished, htrace⟩ := hrun
    obtain ⟨more, out, e, htransfer⟩ := hunfinished
    intro hcarried'
    obtain ⟨hdispatched, hsent⟩ := (htake cl.st
      (fun a ha => htransfer.silent a (List.mem_append_left _ ha)) htrace).delivered hcarried'
    have hcut := ServedSoFar.cut m.payload fd ⟨more, out, e, htransfer⟩ hserved
    have hlog : q.trace = cl.trace ++
        .dispatch 7 Zdcs.kEvSend m.payload :: .serveSend fd data :: calls := by
      rw [htrace]
      simp [Client.logged, hsend.1, hsend.2]
    refine ⟨hdispatched, _, hsent, ?_⟩
    change ServedSoFar data _ q.trace
    rwa [hlog]
  · obtain ⟨calls, out, e, htransfer, htrace⟩ := hrun
    have hclose : ∀ a ∈ Process.closeLog fd, ∃ fd, a = .close fd := by
      intro a ha
      rw [Process.closeLog, if_pos hfd, List.mem_singleton] at ha
      exact ⟨fd, ha⟩
    have hsilent : ∀ a ∈ calls ++ Process.closeLog fd, a.Silent := by
      intro a ha
      rcases List.mem_append.mp ha with ha | ha
      · exact htransfer.silent a ha
      · obtain ⟨fd, rfl⟩ := hclose a ha
        exact .close fd
    have hnext := (ServedInOrder.request m.payload fd htransfer hserved).append fun a ha => by
      obtain ⟨fd, rfl⟩ := hclose a ha
      exact not_serves_close fd
    have hlog : q.trace = cl.trace ++
        .dispatch 7 Zdcs.kEvSend m.payload :: .serveSend fd data :: calls ++
          Process.closeLog fd := by
      rw [htrace]
      simp [Client.logged, hsend.1, hsend.2]
    refine ⟨⟨fun _ => ⟨_, _, htake (countServed cl.st) hsilent htrace, ?_, ?_⟩, h.display⟩,
      fun _ => h.source hcarried, h.bytes⟩
    · change ServedInOrder data _ q.trace
      rwa [hlog]
    · rw [List.countP_append, hcount]
      simp [hsend]

/-- What a delivery leaves alone, whatever the run. -/
theorem deliver_frame (m : Message) :
    Within (fun cl cl' : Client CopyState => cl.trace <+: cl'.trace ∧ cl'.st.data = cl.st.data ∧
      ∀ id, cl'.objects id = .display → cl.objects id = .display)
      (Client.deliver copyDispatcher m) := by
  intro cl
  by_cases hsource : cl.objects m.objectId = .source
  · let r := Reader.new m.objectId m.opcode m.payload
    have hsteady := copyDispatcher.steady m.objectId m.opcode r (cl.logged m)
    have hlogged : (cl.logged m).objects m.objectId = .source := hsource
    have hserving : Serving (cl.logged m) (handleCopy m.objectId m.opcode r (cl.logged m)).2 := by
      rw [handleCopy_source hlogged]
      split_ifs
      · exact onSend_serving _
      · exact cancel_serving _
      · exact Within.pure (R := Serving) () _
    have hhandle : copyDispatcher.handle m.objectId m.opcode r (cl.logged m) =
      handleCopy m.objectId m.opcode r (cl.logged m) := rfl
    rw [hhandle] at hsteady
    rw [Client.deliver_eq, hhandle]
    obtain ⟨log, htrace, -⟩ := hsteady.logs.log
    have hlog : cl.trace <+: (handleCopy m.objectId m.opcode r (cl.logged m)).2.trace :=
      .trans (List.prefix_append _ _) ⟨log, htrace.symm⟩
    have hdisplay : ∀ id, (handleCopy m.objectId m.opcode r (cl.logged m)).2.objects id = .display →
        cl.objects id = .display := by
      rw [hserving.objects]
      exact fun _ h => h
    have hdata := hserving.data
    rcases hr : handleCopy m.objectId m.opcode r (cl.logged m) with ⟨e | u, cl'⟩ <;>
      rw [hr] at hlog hdata hdisplay <;> exact ⟨hlog, hdata, hdisplay⟩
  · obtain ⟨cl', hdeliver, hbypass⟩ := deliver_bypassed hsource
    rw [hdeliver]
    refine ⟨⟨_, hbypass.trace.symm⟩, hbypass.data, fun id hid => ?_⟩
    exact (hbypass.object (by rw [hid]; decide)).symm.trans hid

/-- The other messages for the source change the counters only. -/
theorem Answering.uncounted (h : Answering sent data cl) (hcarried : Carried sent cl.trace)
    (hm : headMessage cl.inBuf = some m) (hobj : m.objectId = 7) (hop : m.opcode ≠ Zdcs.kEvSend) :
    ∃ cl', Client.deliver copyDispatcher m cl = (.ok (), cl') ∧ Answering sent data cl' := by
  obtain ⟨ds, fds, htaken, hserved, hcount⟩ := h.pairs hcarried
  have hsource : (cl.logged m).objects m.objectId = .source := (h.source hcarried _).mpr hobj
  have hhandle : ∃ st : CopyState, st.data = cl.st.data ∧
      copyDispatcher.handle m.objectId m.opcode (.new m.objectId m.opcode m.payload)
        (cl.logged m) = (.ok (), { cl.logged m with st := st }) := by
    by_cases hcancel : m.opcode = Zdcs.kEvCancelled
    · refine ⟨cancel cl.st, (cancel_serving cl).data, (handleCopy_source hsource).trans ?_⟩
      rw [if_neg hop, if_pos hcancel]
      rfl
    · refine ⟨cl.st, rfl, (handleCopy_source hsource).trans ?_⟩
      rw [if_neg hop, if_neg hcancel]
      rfl
  obtain ⟨st, hdata, hhandle⟩ := hhandle
  refine ⟨_, Client.deliver_ok hhandle, ⟨fun _ => ⟨ds ++ [m], fds, ?_, ?_, ?_⟩, h.display⟩,
    fun _ => h.source hcarried, (congrArg CopyData.bytes hdata).trans h.bytes⟩
  · exact htaken.deliver hm [] rfl (List.forall_mem_nil _) rfl rfl
  · exact hserved.other _ fun hserves => hop (serves_dispatch hserves).2
  · rw [List.countP_append, hcount]
    simp [hop]

theorem deliver_answering (hsent : Conforming sent) (m : Message) :
    Triple (fun cl => Answering sent data cl ∧ headMessage cl.inBuf = some m)
      (Client.deliver copyDispatcher m) (fun _ => Answering sent data)
      (fun _ cl => Outcome sent data cl.toProcess) := by
  rintro cl ⟨h, hm⟩
  by_cases hcarried : Carried sent cl.trace
  · by_cases hsend : IsSend m
    · obtain ⟨fd, rest, hfds, hfd⟩ := h.descriptor hsent hcarried hm hsend
      have hstep := deliver_send h hcarried hm hsend hfds hfd
      rcases hr : Client.deliver copyDispatcher m cl with ⟨e | u, cl'⟩ <;> rw [hr] at hstep <;>
        exact hstep
    by_cases hobj : m.objectId = 7
    · obtain ⟨cl', hdeliver, hanswering⟩ := h.uncounted hcarried hm hobj fun hop => hsend ⟨hobj, hop⟩
      rw [hdeliver]
      exact hanswering
    · have hother : cl.objects m.objectId ≠ .source := fun hk => hobj ((h.source hcarried _).mp hk)
      obtain ⟨cl', hdeliver, hbypass⟩ := deliver_bypassed hother
      rw [hdeliver]
      exact h.bypassed hsent hcarried hm hother hbypass
  · obtain ⟨hlog, hdata, hdisplay⟩ := deliver_frame m cl
    rcases hr : Client.deliver copyDispatcher m cl with ⟨e | u, cl'⟩ <;>
      rw [hr] at hlog hdata hdisplay
    · exact fun hcarried' => absurd (hcarried'.upTo hlog) hcarried
    · exact ⟨⟨fun hcarried' => absurd (hcarried'.upTo hlog) hcarried,
        fun id hid => h.display id (hdisplay id hid)⟩,
        fun hcarried' => absurd (hcarried'.upTo hlog) hcarried,
        (congrArg CopyData.bytes hdata).trans h.bytes⟩

/-! ## A whole copy -/

theorem Answering.takesIn (h : Answering sent data cl)
    (htakes : TakesIn cl.toConnection cl'.toConnection) (hlocals : cl'.locals = cl.locals) :
    Answering sent data cl' := by
  have hobjects : cl'.objects = cl.objects :=
    congrArg (fun l : Client.Local CopyState => l.1) hlocals
  have hst : cl'.st = cl.st := congrArg (fun l : Client.Local CopyState => l.2.2) hlocals
  obtain ⟨log, htrace, -⟩ := htakes.log
  refine ⟨h.toPaired.takesIn htakes (by rw [hobjects]; exact fun _ h => h), fun hcarried => ?_, ?_⟩
  · rw [hobjects]
    exact h.source (hcarried.upTo ⟨log, htrace.symm⟩)
  · rw [hst]
    exact h.bytes

theorem onConn_answering {α : Type} {p : Prog Halt Connection α} (h : Within TakesIn p) :
    Triple (Answering sent data) (Client.onConn p) (fun _ => Answering sent data)
      (fun _ cl => Outcome sent data cl.toProcess) := by
  refine Triple.conseq ((Client.onConn_within h).keeps ?_) (fun _ h => h) (fun _ _ h => h)
    fun _ _ h => h.outcome
  rintro cl cl' ⟨htakes, hlocals⟩ hcl
  exact hcl.takesIn htakes hlocals

theorem answering_stable (hsent : Conforming sent) :
    Client.Stable copyDispatcher (Answering sent data)
      (fun _ cl => Outcome sent data cl.toProcess) where
  flush := onConn_answering flush_takesIn
  waitReadable := onConn_answering (carries_takesIn (Connection.waitReadable_moves _))
  pump := onConn_answering (carries_takesIn Connection.pump_moves)
  deliver := deliver_answering hsent

theorem onConn_paired {α : Type} {p : Prog Halt Connection α} (h : Within TakesIn p) :
    Triple (Paired sent data) (Client.onConn p) (fun _ => Paired sent data)
      (fun _ cl => Outcome sent data cl.toProcess) := by
  refine Triple.conseq ((Client.onConn_within h).keeps ?_) (fun _ h => h) (fun _ _ h => h)
    fun _ _ h => h.outcome
  rintro cl cl' ⟨htakes, hlocals⟩ hcl
  have hobjects : cl'.objects = cl.objects :=
    congrArg (fun l : Client.Local CopyState => l.1) hlocals
  exact hcl.takesIn htakes (by rw [hobjects]; exact fun _ h => h)

theorem announce_paired (sel : Selection) :
    Triple (Paired sent data) (announce sel) (fun _ => Paired sent data)
      (fun _ cl => Outcome sent data cl.toProcess) := by
  refine announce_stable
    (fun bytes => onConn_paired (carries_takesIn (Connection.outBytes_moves bytes))) ?_ ?_ ?_ sel
  · exact fun cl h => h.takesIn (refl _) fun _ hid => hid
  · intro id k hspecial
    apply Triple.update
    refine fun cl h => h.takesIn (refl _) fun i hi => ?_
    simp only [Client.setKind] at hi
    split_ifs at hi
    · subst hi
      simp [ObjKind.Special] at hspecial
    · exact hi
  · exact fun f => Triple.update _ fun cl h => h.takesIn (refl _) fun _ hid => hid

variable {oneshot : Bool} {sigpipe : SigDisposition} {payload : CopyData}

theorem copySetup_paired (display seat : Text) (sel : Selection) :
    Triple (fun cl => Fresh (initialFrame (CopyState.new payload oneshot) sigpipe) cl ∧ Booting cl)
      (copySetup display seat sel) (fun _ => Paired sent data)
      (fun _ cl => Outcome sent data cl.toProcess) := by
  have hstart := (start_spoke (fun _ => []) (copy_initial (CopyState.new payload oneshot) sigpipe)
    display seat sel).and (booting_stable.start
      (onConn_booting (carries_takesIn (Connection.connect_moves display))) seat sel)
  apply Triple.bind (Q := fun _ => Paired sent data)
  · refine hstart.conseq (fun _ h => h) (fun ok cl h => ?_) fun e cl h => ?_
    · exact h.2.paired h.1.2.reframe
    · exact (h.2.paired h.1.reframe).outcome
  have hdone : ∀ ok : Bool, Triple (Paired sent data) (pure ok) (fun _ => Paired sent data)
      (fun (_ : Halt) cl => Outcome sent data cl.toProcess) :=
    fun ok => Triple.pure ok fun _ h => h
  intro ok
  apply Triple.ite _ fun _ => hdone _
  intro _
  apply Triple.bind (Q := fun _ => Paired sent data) (Triple.read _ fun _ h => h)
  intro st
  apply Triple.ite fun _ => hdone _
  intro _
  apply Triple.bind (announce_paired sel)
  intro _
  exact Triple.bind (onConn_paired flush_takesIn) fun _ => hdone _

theorem copyClient_paired (hsent : Conforming sent) (display seat : Text) (sel : Selection) :
    Triple (fun cl => Fresh (initialFrame (CopyState.new payload oneshot) sigpipe) cl ∧ Booting cl)
      (copyClient display seat sel) (fun _ => Paired sent payload.bytes)
      (fun _ cl => Outcome sent payload.bytes cl.toProcess) := by
  have hready : Triple (Fresh (initialFrame (CopyState.new payload oneshot) sigpipe))
      (copySetup display seat sel) (SetUp sel payload oneshot sigpipe)
      (fun _ => Spoken (dataFrame payload) (copyRest sel payload.mimeTypes)) :=
    copySetup_triple display seat sel
  have hpaired : Triple (fun cl => Fresh (initialFrame (CopyState.new payload oneshot) sigpipe) cl ∧
      Booting cl) (copySetup display seat sel) (fun _ => Paired sent payload.bytes)
      (fun _ cl => Outcome sent payload.bytes cl.toProcess) := copySetup_paired display seat sel
  apply Triple.bind (Q := fun ok cl => Paired sent payload.bytes cl ∧
    (ok = true → Answering sent payload.bytes cl))
  · refine (hready.and hpaired).conseq (fun _ h => ⟨h.1, h⟩) ?_ fun _ _ h => h.2
    rintro ok cl ⟨⟨hsetup, -⟩, h⟩
    refine ⟨h, fun hok => ⟨h, fun _ => (hsetup hok).source, ?_⟩⟩
    have hst := congrArg (fun st : CopyState => st.data.bytes) (hsetup hok).st
    exact hst
  intro ok
  apply Triple.ite _ fun _ => Triple.pure _ fun _ h => h.1
  intro hok
  apply Triple.bind (Q := fun _ => Answering sent payload.bytes)
  · exact ((answering_stable hsent).dispatchUntil CopyState.done).pre fun _ h => h.2 hok
  intro ok
  apply Triple.bind (Q := fun _ => Answering sent payload.bytes) (Triple.read _ fun _ h => h)
  exact fun st => Triple.pure _ fun _ h => h.toPaired

end Handcrafted

namespace HandcraftedBackend

open Handcrafted

/-- A copy that returns closes descriptors and serves no more. -/
theorem copy_outcome (display seat : Text) (sel : Selection) (data : CopyData) (oneshot : Bool)
    {p : Process} (hp : p.trace = []) {sent : List Sent} (hsent : Conforming sent) :
    Outcome sent data.bytes (copy display seat sel data oneshot p).2 := by
  have hbooting : Booting (Client.new p (CopyState.new data oneshot)) := by
    refine ⟨⟨[], ?_, ?_, ?_⟩, ?_, by simp [Client.new], by simp [Client.new]⟩
    · simp [Client.new, Connection.new, Process.dispatched, Process.observe, hp]
    · simp [Client.new, Connection.new, hp]
    · simp [Client.new, Connection.new, hp]
    · simp [Client.new, Connection.new, hp]
  have hrun := copyClient_paired hsent display seat sel (Client.new p (CopyState.new data oneshot))
    ⟨fresh_new p data oneshot hp, hbooting⟩
  intro hcarried
  unfold copy Client.run at hcarried ⊢
  rcases hr : copyClient display seat sel (Client.new p (CopyState.new data oneshot)) with
    ⟨e | ok, cl⟩ <;> rw [hr] at hrun hcarried
  · exact hrun hcarried
  · obtain ⟨log, htrace, hlog⟩ := Connection.close_trace cl.toConnection
    have hbefore : cl.trace <+: (Connection.close cl.toConnection).2.trace := ⟨log, htrace.symm⟩
    obtain ⟨ds, fds, htaken, hserved, -⟩ := hrun.pairs (hcarried.upTo hbefore)
    obtain ⟨hdispatched, hfds⟩ := htaken.delivered (hcarried.upTo hbefore)
    refine ⟨?_, fds, hfds, .whole ?_⟩
    · have hsame : (Connection.close cl.toConnection).2.dispatched = cl.dispatched :=
        Connection.observe_close (fun _ => rfl) cl.toConnection
      rwa [hsame]
    · change ServedInOrder data.bytes fds (Connection.close cl.toConnection).2.trace
      rw [htrace]
      refine hserved.append fun a ha => ?_
      obtain ⟨fd, rfl⟩ := hlog a ha
      exact not_serves_close fd

/-- The messages are handed over in the order in which they were sent, and each request is served on
its own descriptor. -/
theorem copy_serves_in_order (display seat : Text) (sel : Selection) (data : CopyData)
    (oneshot : Bool) {p : Process} (hp : p.trace = []) {sent : List Sent}
    (hsent : Conforming sent)
    (hcarried : Carried sent (copy display seat sel data oneshot p).2.trace) :
    let q := (copy display seat sel data oneshot p).2
    q.dispatched <+: sent.map (fun s => s.message.delivery) ∧
      ∃ fds, fds <+: sent.filterMap Sent.fd ∧ ServedSoFar data.bytes fds q.trace :=
  copy_outcome display seat sel data oneshot hp hsent hcarried

def sentOnce : List Sent :=
  [⟨.ofArgs 2 WlRegistry.kEvGlobal [.u32 1, .str kIfWlSeat, .u32 8] (by decide), none⟩,
    ⟨.ofArgs 2 WlRegistry.kEvGlobal [.u32 2, .str kIfZwlrMgr, .u32 2] (by decide), none⟩,
    ⟨.ofArgs 3 WlCallback.kEvDone [.u32 0] (by decide), none⟩,
    ⟨.ofArgs 6 WlCallback.kEvDone [.u32 0] (by decide), none⟩,
    ⟨.ofArgs 7 Zdcs.kEvSend [.str (text "text/plain")] (by decide), some 9⟩]

/-- The descriptor comes before the message that it is attached to. -/
def servedOnce : Process :=
  .fresh (bootReplies 2 ++ [.sendmsg (.ok 1000), .poll (.ok (.ready true)),
    .recvmsg (.ok ((event 7 0 [.str (text "text/plain")]).take 5, [9])),
    .poll (.ok (.ready true)),
    .recvmsg (.ok ((event 7 0 [.str (text "text/plain")]).drop 5, [])), .write (.wrote 2)])

theorem copy_serves_in_order_once :
    let q := (copy [] [] .regular ⟨[0x68, 0x69], [text "text/plain"]⟩ true servedOnce).2
    q.dispatched <+: sentOnce.map (fun s => s.message.delivery) ∧
      ∃ fds, fds <+: sentOnce.filterMap Sent.fd ∧ ServedSoFar [0x68, 0x69] fds q.trace :=
  copy_serves_in_order [] [] .regular ⟨[0x68, 0x69], [text "text/plain"]⟩ true rfl
    ⟨by decide +kernel, by decide +kernel, by decide +kernel⟩
    (carried_of_takes (by decide +kernel) (by decide +kernel) (by decide +kernel))

end HandcraftedBackend

end WlClip
