import WlClip.X11Conversation

/-!
# The X11 clipboard

Any number of copies and pastes share an X server, and what they do is interleaved in any way. A
paste that succeeds gives the types of the copy that owned the selection when its first conversion
reached the server, and the payload of the one that owned it when the second did.
-/

open ScriptedProgram ScriptedProgram.Prog Interleaving LittleEndian

namespace WlClip

namespace X11

/-! ## The course of a paste -/

section

variable {x : Connection} {p q : Process}

def WasTold (p : Process) (ok : Bool) (q : Process) : Prop :=
  ok = true → ∃ waits n, q.trace = p.trace ++
      (waits ++ [.call .xPollForEvent (.xPollForEvent (some (.selectionNotify n)))]) ∧
    (∀ a ∈ waits, Waits a) ∧ n.property ≠ 0

theorem waitRound_told (p₀ : Process) (fd : Int) (start timeout : ℕ) :
    Triple (Process.Logs Waits p₀) (waitRound fd start timeout ())
      (fun next q => match next with
        | .inl _ => Process.Logs Waits p₀ q
        | .inr ok => WasTold p₀ ok q) fun _ _ => True := by
  refine Triple.intro ?_ fun _ _ _ _ _ => trivial
  intro p next q hp h
  have haside : ∀ {c : Call} {α : Type} {answer : Reply → Option α}, c.takes = false →
      Within (Process.Logs Waits) (Process.ask c answer) := fun hc =>
    (ask_aside hc _).mono fun _ _ hlogs => hlogs.mono fun _ => .aside
  obtain ⟨event, p₁, hpoll, h⟩ := bind_eq_ok h
  obtain ⟨r, rest, hs, hanswer, rfl⟩ := Process.ask_ok hpoll
  cases r with
  | xPollForEvent event' =>
      obtain rfl := Option.some.inj hanswer
      have hnext : Waits (.call .xPollForEvent (.xPollForEvent event')) →
          Process.Logs Waits p₀ (p.after [.call .xPollForEvent (.xPollForEvent event')] rest) :=
        fun hwaits => hp.trans ⟨⟨_, rfl, hs, by rintro _ (_ | ⟨_, ⟨⟩⟩); exact hwaits⟩, rfl, rfl⟩
      rcases event' with _ | e
      · obtain ⟨now, p₂, hclock, h⟩ := bind_eq_ok h
        have hlogs := (hnext (.aside (.inr (.inr rfl)))).trans ((haside rfl).of_eq hclock)
        split_ifs at h
        · cases h
          exact fun hok => absurd hok (by decide)
        · obtain ⟨_, p₃, hwait, h⟩ := bind_eq_ok h
          cases h
          exact hlogs.trans ((haside rfl).of_eq hwait)
      · cases e with
        | selectionNotify n =>
            cases h
            intro hok
            obtain ⟨log, htrace, -, hlog⟩ := hp.log
            refine ⟨log, n, ?_, hlog, of_decide_eq_true hok⟩
            rw [← List.append_assoc, ← htrace]
        | _ =>
            cases h
            exact hnext (.poll rfl)
  | _ => cases hanswer

theorem requestAndWait_told {selatom target : Atom}
    (h : requestAndWait x selatom target p = (.ok true, q)) :
    ∃ waits n, q.trace = p.trace ++
        .xRequest (.convertSelection x.window selatom target x.atoms.wlSelection) ::
          (waits ++ [.call .xPollForEvent (.xPollForEvent (some (.selectionNotify n)))]) ∧
      (∀ a ∈ waits, Waits a) ∧ n.property ≠ 0 := by
  obtain ⟨_, p₁, hask, h⟩ := bind_eq_ok h
  obtain ⟨start, p₂, hclock, hwait⟩ := bind_eq_ok h
  have htrace₁ : p₁.trace = p.trace ++
      [.xRequest (.convertSelection x.window selatom target x.atoms.wlSelection)] := by
    cases hask
    rfl
  have hlogs := ((ask_aside rfl _).of_eq hclock).mono fun _ => Waits.aside
  have hloop : Triple (Process.Logs Waits p₁)
      (loop .stuck (fun _ p => p.size) (waitRound x.fd start timeoutMs) ()) (WasTold p₁)
      fun _ _ => True := by
    refine Triple.loop (I := fun _ => Process.Logs Waits p₁) (fun _ => ?_) (fun _ _ _ => trivial) ()
    refine (waitRound_told p₁ x.fd start timeoutMs).conseq (fun _ h => h) ?_ fun _ _ h => h
    rintro (_ | ok) q h <;> exact h
  obtain ⟨waits, n, htrace, hwaits, hn⟩ := hloop.ok hwait hlogs rfl
  exact ⟨waits, n, by rw [htrace, htrace₁, List.append_assoc]; rfl, hwaits, hn⟩

theorem readProperty_reads_own {bytes : List UInt8} (h : readProperty x p = (.ok bytes, q)) :
    ∃ log, q.trace = p.trace ++ log ∧ ∀ a ∈ log, ∃ offset length r,
      a = .call (.xGetProperty x.window x.atoms.wlSelection offset length) (.xGetProperty r) := by
  have hlogs : Within (Process.Logs fun a => ∃ offset length r, a = .call
      (.xGetProperty x.window x.atoms.wlSelection offset length) (.xGetProperty r))
      (readProperty x) := by
    refine Within.loop (fun r => Within.bind (Process.ask_logs fun reply a hreply => ?_) fun _ =>
      Within.pure _) _
    cases reply with
    | xGetProperty r => exact ⟨_, _, r, rfl⟩
    | _ => cases hreply
  obtain ⟨log, htrace, -, hlog⟩ := (hlogs.of_eq h).log
  exact ⟨log, htrace, hlog⟩

end

/-! ## What is read -/

section

variable {t : AtomTable} {peers : Window → Peer} {x : Connection} {s s' : System}
  {log : List (Window × Action)} {p q r : Process} {selatom target : Atom} {bytes : List UInt8}

/-- What is read after a conversion is what the owner has stored in answer to it. -/
theorem Quiet.served (hcount : ∀ v ctx, peers v = .owner ctx → ctx.targets.length < 2 ^ 32)
    (hw : peers x.window = .requestor) (h : Quiet x.window s) (hpath : Path (Steps t peers) s log s')
    (hask : requestAndWait x selatom target p = (.ok true, q))
    (hread : readProperty x q = (.ok bytes, r)) (hlog : r.trace = p.trace ++ logOf x.window log)
    (hprop : x.atoms.wlSelection ≠ 0) :
    ∃ before after v ctx type format data,
      log = before ++ (x.window, .xRequest
        (.convertSelection x.window selatom target x.atoms.wlSelection)) :: after ∧
      ((XServer.environment t).run s.1 before).owner selatom = some v ∧ peers v = .owner ctx ∧
      ¬ Refuses ctx ⟨0, x.window, selatom, target, x.atoms.wlSelection⟩ ∧
      storing ctx (counted ctx.data.bytes) ⟨0, x.window, selatom, target, x.atoms.wlSelection⟩ =
        .changeProperty x.window x.atoms.wlSelection type format data ∧
      (type ≠ x.atoms.incr → bytes = data) ∧ Quiet x.window s' := by
  obtain ⟨waits, n, htrace, hwaits, hn⟩ := requestAndWait_told hask
  obtain ⟨reads, htrace', hreads⟩ := readProperty_reads_own hread
  rw [htrace', htrace, List.append_assoc] at hlog
  obtain ⟨log₁, log₂, rfl, hlog₁, hlog₂⟩ := logOf_eq_append (List.append_cancel_left hlog).symm
  obtain ⟨s₁, hpath₁, hpath₂⟩ := hpath.split
  obtain ⟨before, after, v, ctx, rfl, howner, hpeer, hkept, hholds, hquiet⟩ :=
    h.conversation hcount hw hpath₁ hlog₁ hwaits hn
  obtain ⟨type, format, data, prop, hstoring, hstored, rfl, rfl⟩ := hholds
  have hname : replyProperty ⟨0, x.window, selatom, target, x.atoms.wlSelection⟩ =
      x.atoms.wlSelection := if_neg hprop
  rw [hname] at hstoring hstored
  obtain ⟨hquiet', n', hexchanged⟩ := hquiet.exchanged hw hpath₂ (hlog₂.symm ▸ hreads) 0
  rw [hstored, hlog₂] at hexchanged
  refine ⟨before, after ++ log₂, v, ctx, _, format, _, by simp, howner, hpeer, hkept, hstoring,
    fun htype => ?_, hquiet'⟩
  obtain ⟨log', htrace'', hvalue⟩ := (readProperty_reads htype q).ok hread rfl
  obtain rfl := List.append_cancel_left (htrace'.symm.trans htrace'')
  exact (hvalue _ hexchanged).1

end

/-- How a paste gets its payload when it has chosen a type. -/
def X11Backend.Pays (x : Connection) (sel : Selection) (preferMime : Text) (out : PasteResult)
    (p : Process) (log : List Action) : Prop :=
  ∃ target p₁ p₂ p₃ targeting fetching closing, out.mime = chooseMime out.available preferMime ∧
    out.mime ≠ [] ∧ targetAtom x.atoms out.mime p = (.ok target, p₁) ∧
    p₁.trace = p.trace ++ targeting ∧ (∀ a ∈ targeting, a.Aside) ∧
    requestAndWait x (selectionAtom x.atoms sel) target p₁ = (.ok true, p₂) ∧
    readProperty x p₂ = (.ok out.bytes, p₃) ∧ p₃.trace = p₁.trace ++ fetching ∧
    log = targeting ++ (fetching ++ closing)

/-- The parts of a paste that succeeds: it connects, asks for the types, finds their names and, unless
these are all that it is to give, gets the payload. -/
theorem X11Backend.paste_parts {display : Text} {sel : Selection} {preferMime : Text} {listOnly : Bool}
    {p q : Process} {out : PasteResult}
    (h : X11Backend.paste display sel preferMime listOnly p = (.ok (true, out), q)) :
    ∃ x p₁ p₂ p₃ p₄ raw start asked naming rest, connect display p = (.ok (some x), p₁) ∧
      p₁.trace = p.trace ++ start ∧ (∀ a ∈ start, a.Aside) ∧
      requestAndWait x (selectionAtom x.atoms sel) x.atoms.targets p₁ = (.ok true, p₂) ∧
      readProperty x p₂ = (.ok raw, p₃) ∧ p₃.trace = p₁.trace ++ asked ∧
      mimeNames x.atoms (decodeAtoms raw) p₃ = (.ok out.available, p₄) ∧
      p₄.trace = p₃.trace ++ naming ∧ (∀ a ∈ naming, a.Aside) ∧ q.trace = p₄.trace ++ rest ∧
      (listOnly = false → Pays x sel preferMime out p₄ rest) := by
  have hasked : ∀ {x : Connection} {target : Atom} {bytes : List UInt8} {p p' q : Process},
      requestAndWait x (selectionAtom x.atoms sel) target p = (.ok true, p') →
      readProperty x p' = (.ok bytes, q) → ∃ log, q.trace = p.trace ++ log := by
    intro x target bytes p p' q hwait hread
    obtain ⟨log, htrace, -⟩ := IsTrans.trans (r := Goes x.window .requestor) _ _ _
      ((requestAndWait_goes _ _ _).of_eq hwait) ((readProperty_goes _).of_eq hread)
    exact ⟨log, htrace⟩
  obtain ⟨x, p₁, hconnect, h⟩ := bind_eq_ok h
  rcases x with _ | x
  · cases h
  obtain ⟨result, pe, hfrom, h⟩ := bind_eq_ok h
  obtain ⟨_, pd, hdestroy, h⟩ := bind_eq_ok h
  cases h
  have htrace : q.trace = pe.trace ++ [.xRequest (.destroyWindow x.window)] := by
    cases hdestroy
    rfl
  obtain ⟨mimes, p₄, htargets, hfrom⟩ := bind_eq_ok hfrom
  rcases mimes with _ | mimes
  · cases hfrom
  obtain ⟨ok, p₂, hwait, htargets⟩ := bind_eq_ok htargets
  cases ok
  · cases htargets
  obtain ⟨raw, p₃, hread, htargets⟩ := bind_eq_ok htargets
  split_ifs at htargets with hraw
  · cases htargets
  obtain ⟨names, p₄', hnames, htargets⟩ := bind_eq_ok htargets
  cases htargets
  obtain ⟨start, hstart, -, haside⟩ := ((connect_aside _).of_eq hconnect).log
  obtain ⟨asked, hlog⟩ := hasked hwait hread
  obtain ⟨naming, hnaming, -, haside'⟩ := ((mimeNames_aside _ _).of_eq hnames).log
  dsimp only at hfrom
  cases listOnly with
  | true =>
      cases hfrom
      exact ⟨x, p₁, p₂, p₃, pe, raw, start, asked, naming, _, hconnect, hstart, haside, hwait, hread,
        hlog, hnames, hnaming, haside', htrace, by simp⟩
  | false =>
      obtain ⟨ok, p₆, hdata, hfrom⟩ := bind_eq_ok hfrom
      cases ok
      · cases hfrom
      obtain ⟨bytes, p₇, hread', hfrom⟩ := bind_eq_ok hfrom
      cases hfrom
      unfold askData at hdata
      split_ifs at hdata with hmime
      · cases hdata
      obtain ⟨target, p₅, htarget, hdata⟩ := bind_eq_ok hdata
      split_ifs at hdata with hzero
      · cases hdata
      obtain ⟨targeting, htargeting, -, haside''⟩ := ((targetAtom_aside _ _).of_eq htarget).log
      obtain ⟨fetching, hfetching⟩ := hasked hdata hread'
      refine ⟨x, p₁, p₂, p₃, p₄, raw, start, asked, naming,
        targeting ++ (fetching ++ [.xRequest (.destroyWindow x.window)]), hconnect, hstart, haside,
        hwait, hread, hlog, hnames, hnaming, haside', ?_, fun _ => ⟨target, p₅, p₆, pe, targeting,
          fetching, _, rfl, hmime, htarget, htargeting, haside'', hdata, hread', hfetching, rfl⟩⟩
      rw [htrace, hfetching, htargeting]
      simp only [List.append_assoc]

/-! ## The types of an owner -/

theorem decodeAtoms_encoded (ts : List Target) :
    decodeAtoms (ts.flatMap fun t => u32Bytes t.atom) = ts.map Target.atom := by
  induction ts with
  | nil => rfl
  | cons t ts ih =>
      rw [List.flatMap_cons, List.map_cons, ← ih]
      change loadU32 (u32Bytes t.atom) :: _ = _
      rw [loadU32_u32Bytes]
      rfl

section

variable {t : AtomTable} {w : Window} {p q : Process}

theorem ServedBy.naming (h : ServedBy t w p) : Named t.nameOf p := by
  intro a ha
  unfold follows
  split
  · obtain ⟨hn, rfl⟩ := h.interned _ _ ha
    exact decide_eq_true (.inr (t.nameOf_atomOf _ hn))
  · exact decide_eq_true (h.named _ _ ha)
  · rfl

theorem Owns.offered {sel : Selection} {data : CopyData} {ctx : CopyContext}
    (h : Owns t w sel data ctx) {a : Atom} (ha : a ∈ ctx.targets.map Target.atom) :
    ∃ n, t.names n ∧ n.length < 2 ^ 16 ∧ a = t.atomOf n := by
  have hzero : a ≠ 0 := by
    obtain ⟨target, htarget, rfl⟩ := List.mem_map.mp ha
    exact h.advertised.nonzero target htarget
  rw [h.acquired.targets, X11.advertised, mem_addAll hzero, List.nil_append] at ha
  obtain ⟨n, hn, rfl⟩ := mem_candidates.mp ha
  rcases hn with rfl | ⟨m, hm, rfl⟩ | ⟨rfl, -⟩
  · exact ⟨_, h.loaded _ (by decide), by decide, rfl⟩
  · exact ⟨_, h.types m hm, internName_length m, rfl⟩
  · exact ⟨_, h.loaded _ (by decide), by decide, rfl⟩

/-- What `targetAtom` comes to on a server with these atoms. -/
def targetOf (t : AtomTable) (mime : Text) : Atom :=
  if mime = text "text/plain;charset=utf-8" then t.atomOf (text "UTF8_STRING")
  else if mime = text "text/plain" then atomString
  else if mime = text "TEXT" then t.atomOf (text "TEXT")
  else t.atomOf mime

/-- The target for a type of an owner is none of those that the owner answers without the payload,
and is that of an INCR property for the type of this name only. -/
theorem targetAtom_paid {offered : List Atom} {mime : Text} {target : Atom}
    (hoffered : ∀ a ∈ offered, ∃ n, t.names n ∧ n.length < 2 ^ 16 ∧ a = t.atomOf n)
    (hloaded : ∀ n ∈ loaded, t.names n) (hserved : ServedBy t w q)
    (hmime : mime ∈ typeNames (atomsOf t.atomOf) t.nameOf offered)
    (h : targetAtom (atomsOf t.atomOf) mime p = (.ok target, q)) :
    target = targetOf t mime ∧ target ≠ t.atomOf (text "TARGETS") ∧
      target ≠ t.atomOf (text "TIMESTAMP") ∧
      (mime ≠ text "INCR" → target ≠ t.atomOf (text "INCR")) := by
  have hother : ∀ {n : Text}, t.nameOf target = n → n ≠ text "TARGETS" → n ≠ text "TIMESTAMP" →
      n ≠ text "INCR" → target ≠ t.atomOf (text "TARGETS") ∧ target ≠ t.atomOf (text "TIMESTAMP") ∧
        (mime ≠ text "INCR" → target ≠ t.atomOf (text "INCR")) := by
    intro n hname htargets htimestamp hincr
    exact ⟨t.ne_atomOf hname (hloaded _ (by decide)) htargets,
      t.ne_atomOf hname (hloaded _ (by decide)) htimestamp,
      fun _ => t.ne_atomOf hname (hloaded _ (by decide)) hincr⟩
  obtain ⟨a, ha, hname⟩ := List.mem_filterMap.mp hmime
  unfold targetAtom at h
  split_ifs at h with h1 h2 h3
  · cases h
    exact ⟨(if_pos h1).symm, hother (t.nameOf_atomOf _ (hloaded _ (by decide))) (by decide)
      (by decide) (by decide)⟩
  · cases h
    exact ⟨((if_neg h1).trans (if_pos h2)).symm, hother t.predefined.2.2.2 (by decide) (by decide)
      (by decide)⟩
  · cases h
    exact ⟨((if_neg h1).trans ((if_neg h2).trans (if_pos h3))).symm,
      hother (t.nameOf_atomOf _ (hloaded _ (by decide))) (by decide) (by decide) (by decide)⟩
  · obtain ⟨n, hn, hlen, rfl⟩ := hoffered a ha
    unfold typeName at hname
    split_ifs at hname with h4 h5 h6 h7 h8
    · exact absurd (Option.some.inj hname).symm h1
    · exact absurd (Option.some.inj hname).symm h2
    · exact absurd (Option.some.inj hname).symm h3
    obtain rfl : n = mime := (t.nameOf_atomOf n hn).symm.trans (Option.some.inj hname)
    have htold := (internAtom_told (φ := True) n).ok h (fun _ => trivial) hserved.assigned
    obtain rfl : target = t.atomOf n := by rw [htold.2, internName_eq hlen]
    refine ⟨((if_neg h1).trans ((if_neg h2).trans (if_neg h3))).symm, fun h => h8 (.inl h),
      fun h => h8 (.inr (.inl h)), fun hincr => ?_⟩
    exact t.ne_atomOf (t.nameOf_atomOf n hn) (hloaded _ (by decide)) hincr

end

/-! ## Sessions -/

/-- A copy or a paste, from the choice of the backend on. -/
inductive Client
  | copy (common : CommonOptions) (o : CopyCommand.CopyOpts) (data : CopyData)
  | paste (display : Text) (sel : Selection) (preferMime : Text) (listOnly : Bool)

def Client.run : Client → Process → Process
  | .copy common o data, p => (CopyCommand.runX11 common o data p).2
  | .paste display sel preferMime listOnly, p =>
    (X11Backend.paste display sel preferMime listOnly p).2

/-- Each window is that of a client. What the clients have done so far is in the log in the order in
which the server has dealt with it; what they do before and after is no concern of the server. -/
structure Session (t : AtomTable) (clients : Window → Client) (log : List (Window × Action)) :
    Prop where
  conforms : (XServer.environment t).Conforms .initial log
  runs : ∀ w, ∃ (p : Process) (after : List Action), (∀ a ∈ p.trace, a.Aside) ∧
    (∀ a ∈ after, a.Aside) ∧ logOf w log = ((clients w).run p).trace ++ after

/-- When the request of the window for the target reached the server, the copy of the data owned the
selection. -/
def AskedOf (t : AtomTable) (clients : Window → Client) (log : List (Window × Action)) (w : Window)
    (sel : Selection) (target : Atom) (data : CopyData) : Prop :=
  ∃ before after v property common o,
    log = before ++ (w, .xRequest
      (.convertSelection w (selectionAtom (atomsOf t.atomOf) sel) target property)) :: after ∧
    ((XServer.environment t).run .initial before).owner (selectionAtom (atomsOf t.atomOf) sel) =
      some v ∧
    clients v = .copy common o data ∧ common.selection = sel

def Client.Is (t : AtomTable) (w : Window) : Client → Peer → Prop
  | .copy common _ data, peer => peer.Copies t w common.selection data
  | .paste _ _ _ _, peer => peer = .requestor

section

variable {t : AtomTable} {clients : Window → Client} {log : List (Window × Action)} {w : Window}

theorem Client.goes (c : Client) {p : Process} (hserved : ServedBy t w (c.run p)) :
    ∃ peer, c.Is t w peer ∧ Goes w peer p (c.run p) := by
  cases c with
  | copy common o data => exact CopyCommand.runX11_goes hserved
  | paste display sel preferMime listOnly => exact ⟨_, rfl, X11Backend.paste_goes hserved⟩

theorem Session.path (h : Session t clients log) : ∃ peers : Window → Peer,
    (∀ v, (clients v).Is t v (peers v)) ∧
      Path (Steps t peers) (.initial, fun _ => []) log
        ((XServer.environment t).run .initial log, fun _ => []) := by
  have hclient : ∀ v, ∃ peer, (clients v).Is t v peer ∧ Path (Takes v peer) [] (logOf v log) [] := by
    intro v
    obtain ⟨p, after, hbefore, hafter, hlog⟩ := h.runs v
    obtain ⟨peer, his, log', htrace, hpath⟩ :=
      (clients v).goes (servedBy_of_conforms h.conforms hlog)
    have hstay : ∀ part : List Action, (∀ a ∈ part, a.Aside) → Path (Takes v peer) [] part [] :=
      fun part hpart => .stay fun a ha => .aside (hpart a ha)
    refine ⟨peer, his, ?_⟩
    rw [hlog, htrace]
    exact ((hstay _ hbefore).append hpath).append (hstay _ hafter)
  choose peers his hpaths using hclient
  exact ⟨peers, his, joint_path hpaths h.conforms⟩

theorem Client.Is.owner {c : Client} {peer : Peer} {ctx : CopyContext} (h : c.Is t w peer)
    (hpeer : peer = .owner ctx) :
    ∃ common o data, c = .copy common o data ∧ Owns t w common.selection data ctx := by
  subst hpeer
  cases c with
  | copy common o data => exact ⟨common, o, data, rfl, h ctx rfl⟩
  | paste => cases h

theorem selectionAtom_inj (hloaded : ∀ n ∈ loaded, t.names n) {sel sel' : Selection}
    (h : selectionAtom (atomsOf t.atomOf) sel = selectionAtom (atomsOf t.atomOf) sel') :
    sel = sel' := by
  have hne : atomPrimary ≠ t.atomOf (text "CLIPBOARD") :=
    t.ne_atomOf t.predefined.1 (hloaded _ (by decide)) (by decide)
  cases sel <;> cases sel' <;> first | rfl | exact absurd h hne | exact absurd h.symm hne

theorem served_of_owner {peers : Window → Peer} (his : ∀ v, (clients v).Is t v (peers v)) {x : Connection} (hatoms : x.atoms = atomsOf t.atomOf)
    (hloaded : ∀ n ∈ loaded, t.names n) (hw : peers x.window = .requestor)
    {log₀ log₁ log₂ : List (Window × Action)} (hlog : log = log₀ ++ (log₁ ++ log₂)) {s s' : System}
    (hstart : s.1 = (XServer.environment t).run .initial log₀) (hquiet : Quiet x.window s)
    (hpath : Path (Steps t peers) s log₁ s') {sel : Selection} {target : Atom} {p q r : Process}
    {bytes : List UInt8}
    (hask : requestAndWait x (selectionAtom x.atoms sel) target p = (.ok true, q))
    (hread : readProperty x q = (.ok bytes, r)) (htrace : r.trace = p.trace ++ logOf x.window log₁) :
    Quiet x.window s' ∧ ∃ data ctx v type format stored,
      AskedOf t clients log x.window sel target data ∧ Owns t v sel data ctx ∧
      storing ctx (counted data.bytes)
          ⟨0, x.window, selectionAtom x.atoms sel, target, x.atoms.wlSelection⟩ =
        .changeProperty x.window x.atoms.wlSelection type format stored ∧
      (type ≠ x.atoms.incr → bytes = stored) := by
  have hcount : ∀ v ctx, peers v = .owner ctx → ctx.targets.length < 2 ^ 32 := by
    intro v ctx hpeer
    obtain ⟨common, o, data, -, howns⟩ := (his v).owner hpeer
    exact howns.advertised.length_lt
  have hprop : x.atoms.wlSelection ≠ 0 := by
    rw [hatoms]
    exact t.nonzero _ (hloaded _ (by decide))
  obtain ⟨before, after, v, ctx, type, format, stored, rfl, howner, hpeer, hkept, hstoring, hbytes,
    hquiet'⟩ := hquiet.served hcount hw hpath hask hread htrace hprop
  obtain ⟨common, o, data, hclient, howns⟩ := (his v).owner hpeer
  have hsel : common.selection = sel := by
    have hselatom : selectionAtom x.atoms sel = ctx.selatom := by
      by_contra hne
      exact hkept (.inl hne)
    rw [howns.acquired.selatom, hatoms] at hselatom
    exact (selectionAtom_inj hloaded hselatom).symm
  subst hsel
  rw [howns.acquired.data] at hstoring
  refine ⟨hquiet', data, ctx, v, type, format, stored, ?_, howns, hstoring, hbytes⟩
  refine ⟨log₀ ++ before, after ++ log₂, v, x.atoms.wlSelection, common, o, ?_, ?_, hclient, rfl⟩
  · rw [hlog, hatoms]
    simp
  · rw [Environment.run_append, ← hstart, ← hatoms]
    exact howner

theorem Owns.storing_targets {v : Window} {sel : Selection} {data : CopyData} {ctx : CopyContext}
    (h : Owns t v sel data ctx) {selection property : Atom} {payload : List UInt8} :
    storing ctx payload ⟨0, w, selection, t.atomOf (text "TARGETS"), property⟩ = .changeProperty w
      (replyProperty ⟨0, w, selection, t.atomOf (text "TARGETS"), property⟩) atomAtom 32
      (ctx.targets.flatMap fun t => u32Bytes t.atom) := by
  rw [storing, if_pos]
  rw [h.acquired.atoms]
  rfl

theorem Owns.storing_payload {v : Window} {sel : Selection} {data : CopyData} {ctx : CopyContext}
    (h : Owns t v sel data ctx) {selection target property : Atom} {payload : List UInt8}
    (htargets : target ≠ t.atomOf (text "TARGETS")) (htimestamp : target ≠ t.atomOf (text "TIMESTAMP")) :
    storing ctx payload ⟨0, w, selection, target, property⟩ = .changeProperty w
      (replyProperty ⟨0, w, selection, target, property⟩) target 8 payload := by
  rw [storing, h.acquired.atoms]
  exact (if_neg htargets).trans (if_neg htimestamp)

theorem quiet_initial : Quiet w (.initial, fun _ => []) := ⟨fun _ => rfl, fun _ => rfl, rfl⟩

theorem served_types {peers : Window → Peer} (his : ∀ v, (clients v).Is t v (peers v)) {fd : Int}
    (hloaded : ∀ n ∈ loaded, t.names n) (hw : peers w = .requestor) {log₀ log₁ log₂ : List (Window × Action)}
    (hlog : log = log₀ ++ (log₁ ++ log₂)) {s s' : System}
    (hstart : s.1 = (XServer.environment t).run .initial log₀) (hquiet : Quiet w s)
    (hpath : Path (Steps t peers) s log₁ s') {sel : Selection} {p p' q q' : Process} {raw : List UInt8}
    {types : List Text} (hserved : ServedBy t w q')
    (hwait : requestAndWait ⟨fd, w, atomsOf t.atomOf⟩ (selectionAtom (atomsOf t.atomOf) sel)
      (t.atomOf (text "TARGETS")) p = (.ok true, p'))
    (hread : readProperty ⟨fd, w, atomsOf t.atomOf⟩ p' = (.ok raw, q))
    (hnames : mimeNames (atomsOf t.atomOf) (decodeAtoms raw) q = (.ok types, q'))
    (htrace : q.trace = p.trace ++ logOf w log₁) :
    Quiet w s' ∧ ∃ data ctx v, AskedOf t clients log w sel (t.atomOf (text "TARGETS")) data ∧
      Owns t v sel data ctx ∧
      types = typeNames (atomsOf t.atomOf) t.nameOf (ctx.targets.map Target.atom) := by
  obtain ⟨hquiet', data, ctx, v, type, format, stored, hasked, howns, hstoring, hraw⟩ :=
    served_of_owner his rfl hloaded hw hlog hstart hquiet hpath hwait hread htrace
  obtain ⟨-, -, rfl, -, rfl⟩ := XRequest.changeProperty.inj
    (howns.storing_targets.symm.trans hstoring)
  refine ⟨hquiet', data, ctx, v, hasked, howns, ?_⟩
  rw [mimeNames_named hnames hserved.naming, hraw (t.ne_atomOf t.predefined.2.1
    (hloaded _ (by decide)) (by decide)), decodeAtoms_encoded]

theorem served_payload {peers : Window → Peer} (his : ∀ v, (clients v).Is t v (peers v)) {fd : Int}
    (hloaded : ∀ n ∈ loaded, t.names n) (hw : peers w = .requestor) {log₀ log₁ : List (Window × Action)}
    (hlog : log = log₀ ++ log₁) {s s' : System}
    (hstart : Path (Steps t peers) (.initial, fun _ => []) log₀ s) (hquiet : Quiet w s)
    (hpath : Path (Steps t peers) s log₁ s') {sel : Selection} {preferMime : Text} {out : PasteResult}
    {p q : Process} {rest after : List Action} {ts : List Atom}
    (hts : ∀ a ∈ ts, ∃ n, t.names n ∧ n.length < 2 ^ 16 ∧ a = t.atomOf n)
    (htypes : out.available = typeNames (atomsOf t.atomOf) t.nameOf ts) (hserved : ServedBy t w q)
    (hrest : q.trace = p.trace ++ rest)
    (hpays : X11Backend.Pays ⟨fd, w, atomsOf t.atomOf⟩ sel preferMime out p rest)
    (hlogs : logOf w log₁ = rest ++ after) (hincr : out.mime ≠ text "INCR") :
    ∃ data, AskedOf t clients log w sel (targetOf t out.mime) data ∧
      out.bytes = counted data.bytes := by
  obtain ⟨target, p₁, p₂, p₃, targeting, fetching, closing, hmime, hne, htarget, htargeting, haside,
    hwait, hread, hfetching, rfl⟩ := hpays
  rw [List.append_assoc] at hlogs
  obtain ⟨log₂, log₃, rfl, hlogs₂, hparts⟩ := logOf_eq_append hlogs
  rw [List.append_assoc] at hparts
  obtain ⟨log₄, log₅, rfl, hlogs₄, -⟩ := logOf_eq_append hparts
  obtain ⟨s₁, hpath₁, hpath⟩ := hpath.split
  obtain ⟨s₂, hpath₂, -⟩ := hpath.split
  have hquiet₁ := (hquiet.path hw hpath₁ (hlogs₂ ▸ fun a ha => .aside (haside a ha))).1
  have hsplit : log = (log₀ ++ log₂) ++ (log₄ ++ log₅) := by
    rw [hlog]
    simp only [List.append_assoc]
  obtain ⟨-, data, ctx, v, type, format, stored, hasked, howns, hstoring, hbytes⟩ :=
    served_of_owner his rfl hloaded hw hsplit (joint_run (hstart.append hpath₁)) hquiet₁ hpath₂ hwait
      hread (hlogs₄ ▸ hfetching)
  have hserved₁ : ServedBy t w p₁ := by
    refine hserved.before ⟨fetching ++ closing, ?_⟩
    rw [hrest, htargeting, List.append_assoc]
  have hoffered : out.mime ∈ typeNames (atomsOf t.atomOf) t.nameOf ts := by
    rw [← htypes, hmime]
    refine chooseMime_mem (fun hnil => hne ?_) preferMime
    rw [hmime, hnil, chooseMime_nil]
  obtain ⟨rfl, htargets, htimestamp, hincr'⟩ := targetAtom_paid hts hloaded hserved₁ hoffered htarget
  obtain ⟨-, -, rfl, -, rfl⟩ := XRequest.changeProperty.inj
    ((howns.storing_payload htargets htimestamp).symm.trans hstoring)
  exact ⟨data, hasked, hbytes (hincr' hincr)⟩

/-- A paste that succeeds gives the types of the copy that owned the selection when it asked for them,
and the payload of the one that owned it when it asked for that, whatever any number of other copies
and pastes do at the same time. -/
theorem Session.served (hsession : Session t clients log) {display : Text} {sel : Selection}
    {preferMime : Text} {listOnly : Bool} (hclient : clients w = .paste display sel preferMime listOnly)
    {p q : Process} {out : PasteResult} {after : List Action} (hp : ∀ a ∈ p.trace, a.Aside)
    (hpaste : X11Backend.paste display sel preferMime listOnly p = (.ok (true, out), q))
    (hlog : logOf w log = q.trace ++ after) :
    (∃ data, AskedOf t clients log w sel (t.atomOf (text "TARGETS")) data ∧
      out.available = typeNames (atomsOf t.atomOf) t.nameOf
        ((advertised t.atomOf data.mimeTypes).map Target.atom)) ∧
    (listOnly = false → out.mime ≠ text "INCR" →
      ∃ data, AskedOf t clients log w sel (targetOf t out.mime) data ∧
        out.bytes = counted data.bytes) := by
  obtain ⟨peers, his, hpath⟩ := hsession.path
  have hserved : ServedBy t w q := servedBy_of_conforms hsession.conforms hlog
  have hw : peers w = .requestor := by
    have h := his w
    rw [hclient] at h
    exact h
  obtain ⟨⟨fd, window, atoms⟩, p₁, p₂, p₃, p₄, raw, start, asked, naming, rest, hconnect, hstart,
    haside, hwait, hread, hasked, hnames, hnaming, haside', hrest, hpays⟩ :=
      X11Backend.paste_parts hpaste
  have hserved₄ : ServedBy t w p₄ := hserved.before ⟨rest, hrest⟩
  have hserved₁ : ServedBy t w p₁ := (hserved₄.before ⟨naming, hnaming⟩).before ⟨asked, hasked⟩
  obtain ⟨rfl, hatoms, hloaded⟩ := connect_known hconnect hserved₁
  obtain rfl : atoms = atomsOf t.atomOf := hatoms
  have hparts : logOf window log = (p.trace ++ start) ++ (asked ++ (naming ++ (rest ++ after))) := by
    rw [hlog, hrest, hnaming, hasked, hstart]
    simp only [List.append_assoc]
  obtain ⟨log₀, log', rfl, hlogs₀, hparts⟩ := logOf_eq_append hparts
  obtain ⟨log₁, log'', rfl, hlogs₁, hparts⟩ := logOf_eq_append hparts
  obtain ⟨log₂, log₃, rfl, hlogs₂, hlogs₃⟩ := logOf_eq_append hparts
  obtain ⟨s₁, hpath₀, hpath⟩ := hpath.split
  obtain ⟨s₂, hpath₁, hpath⟩ := hpath.split
  obtain ⟨s₃, hpath₂, hpath₃⟩ := hpath.split
  have hquiet₁ : Quiet window s₁ := by
    refine (quiet_initial.path hw hpath₀ (hlogs₀ ▸ fun a ha => .aside ?_)).1
    exact (List.mem_append.mp ha).elim (hp a) (haside a)
  obtain ⟨hquiet₂, data, ctx, v, hasked₁, howns, htypes⟩ := served_types his hloaded hw rfl
    (joint_run hpath₀) hquiet₁ hpath₁ hserved₄ hwait hread hnames (hlogs₁ ▸ hasked)
  have hquiet₃ := (hquiet₂.path hw hpath₂ (hlogs₂ ▸ fun a ha => .aside (haside' a ha))).1
  refine ⟨⟨data, hasked₁, by rw [htypes, howns.acquired.targets]⟩, fun hlist hincr => ?_⟩
  have hsplit : log₀ ++ (log₁ ++ (log₂ ++ log₃)) = (log₀ ++ (log₁ ++ log₂)) ++ log₃ := by
    simp only [List.append_assoc]
  exact served_payload his hloaded hw hsplit (hpath₀.append (hpath₁.append hpath₂)) hquiet₃ hpath₃
    (fun _ ha => howns.offered ha) htypes hserved hrest (hpays hlist) hlogs₃ hincr

end

/-! ## The names that every client interns -/

/-- The names that the code interns, in the order in which it does. -/
def tableNames : List (Atom × Text) :=
  (loaded.zipIdx 300).map (fun n => (.ofNat n.2, n.1)) ++
    [(atomPrimary, text "PRIMARY"), (atomAtom, text "ATOM"), (atomInteger, text "INTEGER"),
      (atomString, text "STRING")]

theorem numbered_name : ∀ n ∈ loaded, X11Backend.nameIn tableNames (numbered [] n) = n := by
  decide +kernel

theorem numbered_nonzero : ∀ n ∈ loaded, numbered [] n ≠ 0 := by decide +kernel

theorem tableNames_predefined : X11Backend.nameIn tableNames atomPrimary = text "PRIMARY" ∧
    X11Backend.nameIn tableNames atomAtom = text "ATOM" ∧
    X11Backend.nameIn tableNames atomInteger = text "INTEGER" ∧
    X11Backend.nameIn tableNames atomString = text "STRING" := by decide +kernel

def table : AtomTable where
  names n := n ∈ loaded
  atomOf := numbered []
  nameOf := X11Backend.nameIn tableNames
  nameOf_atomOf := numbered_name
  nonzero := numbered_nonzero
  predefined := tableNames_predefined

instance : DecidablePred table.names := fun n => inferInstanceAs (Decidable (n ∈ loaded))

def connected (fd : Int) (window : Window) : List Reply :=
  .xConnect (some (fd, window)) ::
    [300, 301, 302, 303, 304, 305, 306, 307, 308].map .xInternAtom

end X11

end WlClip
