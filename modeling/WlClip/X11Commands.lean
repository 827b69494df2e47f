import WlClip.CommandLine
import WlClip.CopyThenPaste
import WlClip.FailedReads
import WlClip.X11Ownership

/-!
# Commands that share an X server

Any number of copies and pastes, each from its command line on, work on an X server at the same time.
What a paste writes to its standard output is what the copy had read or was given that was the last to
claim the selection when the paste asked for it.
-/

open ScriptedProgram ScriptedProgram.Prog Interleaving LittleEndian

namespace WlClip

open X11 Options

/-! ## What a copy reads -/

namespace Process

variable {fd : Int} {buf : List UInt8} {p q : Process}

/-- Since `p` the bytes were read. -/
def Got (fd : Int) (p : Process) (bytes : List UInt8) (q : Process) : Prop :=
  ∃ log, q.trace = p.trace ++ log ∧ Reads fd log ∧ log.flatMap (Action.readFrom fd) = bytes

theorem Got.none (fd : Int) (p : Process) : Got fd p [] p :=
  ⟨[], (List.append_nil _).symm, List.forall_mem_nil _, rfl⟩

theorem Got.read (h : Got fd p buf q) {bytes : List UInt8} {r : Except Errno (List UInt8)}
    (hr : r.toOption.getD [] = bytes) (rest : List Reply) :
    Got fd p (buf ++ bytes) (q.after [.call (.read fd) (.read r)] rest) := by
  obtain ⟨log, htrace, hreads, hbuf⟩ := h
  refine ⟨log ++ [.call (.read fd) (.read r)], ?_, ?_, ?_⟩
  · rw [← List.append_assoc, ← htrace]
    rfl
  · exact List.forall_mem_append.mpr ⟨hreads, List.forall_mem_singleton.mpr ⟨r, rfl⟩⟩
  · rw [List.flatMap_append, hbuf, List.flatMap_singleton, ← hr]
    rcases r with e | bytes
    · rfl
    · exact congrArg _ (if_pos rfl)

theorem drainRound_got (p : Process) (buf : List UInt8) :
    Triple (Got fd p buf) (drainRound fd buf)
      (fun next q => match next with
        | .inl buf' => Got fd p buf' q
        | .inr bytes => Got fd p bytes q)
      fun _ q => ∃ bytes, Got fd p bytes q := by
  refine Triple.intro (fun q next q' hq h => ?_) fun q e q' hq h => ?_
  · obtain ⟨r, q₁, hread, h⟩ := bind_eq_ok h
    obtain ⟨reply, rest, -, ha, rfl⟩ := ask_ok hread
    cases reply with
    | read r' =>
        obtain rfl := Option.some.inj ha
        have hnone : r'.toOption.getD [] = [] →
            Got fd p buf (q.after [.call (.read fd) (.read r')] rest) := by
          intro hr
          have hnext := hq.read hr rest
          rwa [List.append_nil] at hnext
        rcases r' with e | _ | ⟨b, bytes⟩
        · cases e <;> cases h <;> exact hnone rfl
        · cases h
          exact hnone rfl
        · cases h
          exact hq.read rfl rest
    | _ => cases ha
  · rcases hread : read fd q with ⟨e' | r, q₁⟩
    · obtain ⟨-, rfl⟩ := ask_error hread
      cases (bind_error hread).symm.trans h
      exact ⟨buf, hq⟩
    · have h := (bind_ok hread).symm.trans h
      rcases r with e' | _ | ⟨b, bytes⟩
      · cases e' <;> cases h
      · cases h
      · cases h

theorem drainFd_got (fd : Int) (p : Process) :
    Triple (fun q => q = p) (drainFd fd) (Got fd p) fun _ q => ∃ bytes, Got fd p bytes q := by
  have hloop : Triple (Got fd p []) (drainFd fd) (Got fd p) fun _ q => ∃ bytes, Got fd p bytes q :=
    Triple.loop_total (I := Got fd p) (drainRound_shrinks fd) (fun buf =>
      (drainRound_got p buf).conseq (fun _ h => h) (by rintro (_ | _) q h <;> exact h) fun _ _ h => h) []
  refine hloop.pre ?_
  rintro _ rfl
  exact .none fd _

end Process

namespace CopyCommand

def given (o : CopyOpts) (input : List UInt8) : List UInt8 :=
  if o.rest ≠ [] then joinArgs o.rest else input

/-- What a copy publishes that has read the input. -/
def published (o : CopyOpts) (input : List UInt8) : CopyData :=
  if o.clear then ⟨[], []⟩
  else if o.mimeTypes = [] then
    let guessed := guessMime (payload o (given o input)) []
    ⟨payload o (given o input),
      if startsWith guessed (text "text/") then textTypes else [guessed]⟩
  else ⟨payload o (given o input), o.mimeTypes⟩

theorem collectPayload_reads (o : CopyOpts) (p : Process) :
    Triple (fun q => q = p) (collectPayload o)
      (fun bytes q =>
        ∃ input, Process.Got stdinFileno p input q ∧ bytes = payload o (given o input))
      fun _ q => ∃ input, Process.Got stdinFileno p input q := by
  refine Triple.ite (fun hrest => ?_) fun hrest => ?_
  · refine Triple.pure _ ?_
    rintro _ rfl
    exact ⟨[], .none stdinFileno _, congrArg (payload o) (if_pos hrest).symm⟩
  · refine Triple.bind (Process.drainFd_got stdinFileno p) fun bytes => Triple.pure _ fun q hq => ?_
    exact ⟨bytes, hq, congrArg (payload o) (if_neg hrest).symm⟩

theorem collectData_reads (o : CopyOpts) (p : Process) :
    Triple (fun q => q = p) (collectData o)
      (fun data q => ∃ input, Process.Got stdinFileno p input q ∧ data = published o input)
      fun _ q => ∃ input, Process.Got stdinFileno p input q := by
  refine Triple.ite (fun hclear => Triple.pure _ ?_) fun hclear => ?_
  · rintro _ rfl
    exact ⟨[], .none stdinFileno _, (if_pos hclear).symm⟩
  refine Triple.bind (collectPayload_reads o p) fun bytes =>
    Triple.ite (fun hmimes => Triple.pure _ ?_) fun hmimes => Triple.pure _ ?_
  · rintro q ⟨input, hq, rfl⟩
    refine ⟨input, hq, ?_⟩
    rw [published, if_neg hclear]
    exact (if_pos hmimes).symm
  · rintro q ⟨input, hq, rfl⟩
    refine ⟨input, hq, ?_⟩
    rw [published, if_neg hclear]
    exact (if_neg hmimes).symm

end CopyCommand

/-! ## What a paste writes -/

theorem Action.Mute.wroteTo {a : Action} (h : a.Mute) : a.wroteTo PasteCommand.stdoutFileno = [] := by
  unfold Action.wroteTo
  split
  · split_ifs with hfd
    · have hbytes := (if_pos hfd).symm.trans h
      rw [hbytes, List.take_nil]
    · rfl
  · rfl

namespace Process

variable {fd : Int} {data left : List UInt8} {p q q' : Process}

/-- Since `p` the data was written up to what is left of it. -/
def Left (fd : Int) (data : List UInt8) (p : Process) (left : List UInt8) (q : Process) : Prop :=
  ∃ log, q.trace = p.trace ++ log ∧ log.flatMap (Action.wroteTo fd) ++ left = data

theorem Left.write {r : Except Errno ℕ} (h : Left fd data p left q) (hwrite : write fd left q = (.ok r, q')) :
    Left fd data p (left.drop (r.toOption.getD 0)) q' := by
  obtain ⟨log, htrace, hdata⟩ := h
  have hwrote : ∀ (reply : WriteResult) (rest : List Reply) (n : ℕ),
      (Action.call (.write fd left) (.write reply)).wroteTo fd = left.take n →
      Left fd data p (left.drop n) (q.after [.call (.write fd left) (.write reply)] rest) := by
    intro reply rest n hn
    refine ⟨log ++ [.call (.write fd left) (.write reply)], ?_, ?_⟩
    · rw [← List.append_assoc, ← htrace]
      rfl
    · rw [List.flatMap_append, List.flatMap_singleton, hn, List.append_assoc, List.take_append_drop,
        hdata]
  rcases write_cases fd left q with hwait | ⟨reply, rest, result, hresult, hrun⟩
  · cases hwait.symm.trans hwrite
  · obtain ⟨rfl, rfl⟩ := Prod.mk.inj (hrun.symm.trans hwrite)
    cases hresult with
    | wrote n => exact hwrote _ rest n (if_pos rfl)
    | failed e => exact hwrote _ rest 0 rfl
    | ignored => exact hwrote _ rest 0 rfl

theorem writeAll_writes (fd : Int) (data : List UInt8) (p : Process) :
    Triple (fun q => q = p) (writeAll fd data) (fun ok q => ok = true → Left fd data p [] q)
      fun _ _ => True := by
  have hloop : Triple (Left fd data p data)
      (loop .stuck (fun _ p => p.size) (writeRound fd) data) (fun ok q => ok = true → Left fd data p [] q)
      fun _ _ => True := by
    refine Triple.loop (I := Left fd data p) (fun left => Triple.intro ?_ fun _ _ _ _ _ => trivial)
      (fun _ _ _ => trivial) data
    intro q next q' hq h
    unfold writeRound at h
    split_ifs at h with hleft
    · cases h
      exact fun _ => hleft ▸ hq
    · obtain ⟨r, q₁, hwrite, h⟩ := bind_eq_ok h
      have hnext := hq.write hwrite
      rcases r with e | n
      · cases e <;> cases h
        all_goals first
          | exact hnext
          | exact fun hok => absurd hok (by decide)
      · cases h
        exact hnext
  refine hloop.pre ?_
  rintro _ rfl
  exact ⟨[], (List.append_nil _).symm, rfl⟩

theorem write_aside (fd : Int) (data : List UInt8) : Within (Logs Action.Aside) (write fd data) := by
  apply Within.bind (ask_aside rfl _)
  rintro (n | e | _)
  · exact Within.pure _
  · exact Within.pure _
  · apply Within.bind (R := Logs Action.Aside) (Within.read _)
    rintro (_ | _)
    · exact Within.halt _
    · exact Within.pure _

end Process

/-- What a paste of the payload takes is one of the types. -/
theorem X11.paste_chosen {display : Text} {sel : Selection} {preferMime : Text} {listOnly : Bool}
    {p q : Process} {out : PasteResult}
    (h : X11Backend.paste display sel preferMime listOnly p = (.ok (true, out), q))
    (hlist : listOnly = false) :
    out.mime = chooseMime out.available preferMime ∧ out.mime ∈ out.available := by
  obtain ⟨_, _, _, _, _, _, _, _, _, _, -, -, -, -, -, -, -, -, -, -, hpays⟩ :=
    X11Backend.paste_parts h
  obtain ⟨_, _, _, _, _, _, _, hmime, hne, -⟩ := hpays hlist
  refine ⟨hmime, ?_⟩
  rw [hmime]
  exact chooseMime_mem (fun hnil => hne (by rw [hmime, hnil, chooseMime_nil])) preferMime

namespace PasteCommand

theorem output_aside (o : PasteOpts) (out : PasteResult) :
    Within (Process.Logs Action.Aside) (output o out) := by
  have hall : Within (Process.Logs Action.Aside) (Process.writeAll stdoutFileno out.bytes) := by
    refine Within.loop (fun left => Within.ite (Within.pure _)
      (Within.bind (Process.write_aside _ _) ?_)) _
    rintro (e | n)
    · cases e <;> exact Within.pure _
    · exact Within.pure _
  have hend : ∀ ok : Bool, Within (Process.Logs Action.Aside) (if !ok then (pure 1 : Prog Halt Process ℕ)
      else if addsNewline o out then do
        let _ ← Process.write stdoutFileno [0x0A]
        return 0
      else return 0) := fun ok =>
    Within.ite (Within.pure _) (Within.ite (Within.bind (Process.write_aside _ _) fun _ => Within.pure _)
      (Within.pure _))
  refine Within.ite (Within.ite (Within.pure _) (Within.bind (Process.write_aside _ _) fun _ =>
    Within.pure _)) (Within.ite ?_ ?_)
  · exact Within.bind (Within.pure _) hend
  · exact Within.bind hall hend

def newline (o : PasteOpts) (out : PasteResult) : List UInt8 := if addsNewline o out then [0x0A] else []

/-- The payload is on the standard output, and the newline unless it could not be written. -/
def Paid (o : PasteOpts) (out : PasteResult) (log : List Action) : Prop :=
  ∃ end', end' <+: newline o out ∧ log.flatMap (Action.wroteTo stdoutFileno) = out.bytes ++ end'

/-- What is on the standard output when the command succeeds. -/
def Printed (o : PasteOpts) (out : PasteResult) (log : List Action) : Prop :=
  if o.listTypes then log.flatMap Action.output = listing out.available else Paid o out log

variable {o : PasteOpts} {out : PasteResult} {p : Process}

theorem listing_written : Triple (fun q => q = p) (Process.write stdoutFileno (listing out.available))
    (fun _ q => ∃ log, q.trace = p.trace ++ log ∧ log.flatMap Action.output = listing out.available)
    fun _ _ => True := by
  refine Triple.intro ?_ fun _ _ _ _ _ => trivial
  rintro q r q' rfl h
  rcases Process.write_cases stdoutFileno (listing out.available) q with
    hwait | ⟨reply, rest, result, -, hrun⟩
  · cases hwait.symm.trans h
  · obtain ⟨-, rfl⟩ := Prod.mk.inj (hrun.symm.trans h)
    exact ⟨_, rfl, by rw [List.flatMap_singleton, Action.output, if_pos rfl]⟩

theorem end_written (ok : Bool) :
    Triple (fun q => ok = true → Process.Left stdoutFileno out.bytes p [] q)
      (if !ok then (pure 1 : Prog Halt Process ℕ)
        else if addsNewline o out then do
          let _ ← Process.write stdoutFileno [0x0A]
          return 0
        else return 0)
      (fun code q => code = 0 → ∃ log, q.trace = p.trace ++ log ∧ Paid o out log) fun _ _ => True := by
  refine Triple.ite (fun _ => Triple.pure _ fun q _ hcode => absurd hcode (by decide)) fun hok => ?_
  have hok : ok = true := by simpa using hok
  refine Triple.ite (fun hnewline => Triple.intro ?_ fun _ _ _ _ _ => trivial) fun hnewline =>
    Triple.pure _ ?_
  · intro q code q' hq h _
    obtain ⟨r, q₁, hwrite, h⟩ := bind_eq_ok h
    cases h
    obtain ⟨log, htrace, hbytes⟩ := hq hok
    have hstart : Process.Left stdoutFileno [0x0A] q [0x0A] q := ⟨[], (List.append_nil _).symm, rfl⟩
    obtain ⟨log', htrace', hend⟩ := hstart.write hwrite
    refine ⟨log ++ log', ?_, log'.flatMap (Action.wroteTo stdoutFileno), ?_, ?_⟩
    · rw [htrace', htrace, List.append_assoc]
    · rw [newline, if_pos hnewline, ← hend]
      exact List.prefix_append _ _
    · rw [List.flatMap_append, ← hbytes, List.append_nil]
  · intro q hq _
    obtain ⟨log, htrace, hbytes⟩ := hq hok
    rw [List.append_nil] at hbytes
    exact ⟨log, htrace, [], List.nil_prefix, by rw [hbytes, List.append_nil]⟩

theorem output_prints (o : PasteOpts) (out : PasteResult) (p : Process) :
    Triple (fun q => q = p) (output o out)
      (fun code q => code = 0 → ∃ log, q.trace = p.trace ++ log ∧ Printed o out log) fun _ _ => True := by
  refine Triple.ite (fun hlist => ?_) fun hlist => ?_
  · have hprinted : Printed o out = fun log => log.flatMap Action.output = listing out.available :=
      funext fun log => if_pos hlist
    rw [hprinted]
    refine Triple.ite (fun hnil => Triple.pure _ ?_) fun _ =>
      Triple.bind listing_written fun _ => Triple.pure _ fun q h _ => h
    rintro _ rfl _
    exact ⟨[], (List.append_nil _).symm, hnil.symm⟩
  · have hprinted : Printed o out = Paid o out := funext fun log => if_neg hlist
    rw [hprinted]
    refine Triple.ite (fun hnil => ?_) fun _ => Triple.bind (Process.writeAll_writes _ _ p) end_written
    refine Triple.bind (Triple.pure _ ?_) end_written
    rintro _ rfl _
    exact ⟨[], (List.append_nil _).symm, hnil.symm⟩

theorem Printed.before {o : PasteOpts} {out : PasteResult} {before log : List Action}
    (hbefore : ∀ a ∈ before, a.Mute) (h : Printed o out log) : Printed o out (before ++ log) := by
  have houtput : before.flatMap Action.output = [] := List.flatMap_eq_nil_iff.mpr hbefore
  have hwrote : before.flatMap (Action.wroteTo stdoutFileno) = [] :=
    List.flatMap_eq_nil_iff.mpr fun a ha => (hbefore a ha).wroteTo
  unfold Printed Paid at h ⊢
  rwa [List.flatMap_append, houtput, List.flatMap_append, hwrote, List.nil_append, List.nil_append]

end PasteCommand

/-! ## The commands -/

open PasteCommand (PasteOpts Printed)
open CopyCommand (published collectData branch)

/-- Makes the client known to the server, or asks the server for something. -/
def Action.onX : Action → Bool
  | .call c _ => c.introduces
  | .xRequest _ => true
  | _ => false

/-- A copy or a paste by way of an X server. -/
def Job.OnX11 : Job → Prop
  | .copy _ _ kind => branch kind = .x11
  | .paste _ _ kind => branch kind = .x11
  | _ => False

theorem main_line {kind : BackendKind} {argv : List Text} {i : Job} (h : Line kind argv i) :
    main kind argv = i.perform := by
  rw [main_eq, jobOf_iff.mpr h]

namespace X11

/-- What a copy has read before it turns to the server. -/
def inputOf (log : List Action) : List UInt8 :=
  (log.takeWhile fun a => !a.onX).flatMap (Action.readFrom CopyCommand.stdinFileno)

/-- Each window is that of a command. What the commands have done so far is in the log in the order in
which the server has dealt with it. -/
structure Commands (t : AtomTable) (jobs : Window → Job) (log : List (Window × Action)) : Prop where
  conforms : (XServer.environment t).Conforms .initial log
  onX11 : ∀ w, (jobs w).OnX11
  runs : ∀ w, ∃ kind argv p, p.trace = [] ∧ Line kind argv (jobs w) ∧
    logOf w log = (main kind argv p).2.trace

/-- What a command is to the server. A copy that has not read its input to the end has not turned to
it, as a paste that has not begun. -/
inductive ClientOf (log : List Action) : Job → Client → Prop
  | copy {common : CommonOptions} {o : CopyCommand.CopyOpts} {kind : BackendKind} :
      ClientOf log (.copy common o kind) (.copy common o (published o (inputOf log)))
  | reading {common : CommonOptions} {o : CopyCommand.CopyOpts} {kind : BackendKind} :
      ClientOf log (.copy common o kind) (.paste [] .regular [] false)
  | paste {common : CommonOptions} {o : PasteOpts} {kind : BackendKind} :
      ClientOf log (.paste common o kind) (.paste common.display common.selection o.type o.listTypes)

/-- The window asked for the target when the copy was the last that had claimed the selection, and the
data is what that copy was given to publish. -/
def Published (t : AtomTable) (jobs : Window → Job) (log : List (Window × Action)) (w : Window)
    (sel : Selection) (target : Atom) (data : CopyData) : Prop :=
  ∃ before after v property common o kind,
    log = before ++ (w, .xRequest
      (.convertSelection w (selectionAtom (atomsOf t.atomOf) sel) target property)) :: after ∧
    Latest before v (selectionAtom (atomsOf t.atomOf) sel) ∧ jobs v = .copy common o kind ∧
    common.selection = sel ∧ data = published o (inputOf (logOf v log))

section

variable {t : AtomTable} {jobs : Window → Job} {clients : Window → Client}
  {log : List (Window × Action)} {w : Window} {kind : BackendKind} {argv : List Text} {i : Job}

theorem Life.onX {data : CopyData} {oneshot returned : Bool} {log : List Action}
    (h : Life data oneshot returned log) : log = [] ∨ ∃ a rest, log = a :: rest ∧ a.onX = true := by
  have honX : ∀ {a : Action}, a.Introduces → a.onX = true := by
    intro a ha
    cases a with
    | call c r => exact ha
    | _ => cases ha
  cases h with
  | unclaimed h =>
      rcases log with _ | ⟨a, rest⟩
      · exact .inl rfl
      · exact .inr ⟨a, rest, rfl, honX (h a List.mem_cons_self)⟩
  | @claimed w selection before rest hbefore h =>
      rcases before with _ | ⟨a, before⟩
      · exact .inr ⟨_, rest, rfl, rfl⟩
      · exact .inr ⟨a, _, rfl, honX (hbefore a List.mem_cons_self)⟩

theorem inputOf_append {reads life : List Action} (hreads : Process.Reads CopyCommand.stdinFileno reads)
    (hlife : life = [] ∨ ∃ a rest, life = a :: rest ∧ a.onX = true) :
    inputOf (reads ++ life) = reads.flatMap (Action.readFrom CopyCommand.stdinFileno) := by
  have hoff : ∀ a ∈ reads, (!a.onX) = true := by
    intro a ha
    obtain ⟨r, rfl⟩ := hreads a ha
    rfl
  have hnone : life.takeWhile (fun a => !a.onX) = [] := by
    rcases hlife with rfl | ⟨a, rest, rfl, ha⟩
    · rfl
    · exact List.takeWhile_cons_of_neg (by simp [ha])
  rw [inputOf, List.takeWhile_append_of_pos hoff, hnone, List.append_nil]

theorem reads_aside {fd : Int} {reads : List Action} (h : Process.Reads fd reads) :
    ∀ a ∈ reads, a.Aside := by
  intro a ha
  obtain ⟨r, rfl⟩ := h a ha
  exact .inl rfl

/-- The log is the run of the client, but for what was done aside before it and after it. -/
def RanAs (log : List Action) (c : Client) : Prop :=
  ∃ (p : Process) (after : List Action), (∀ a ∈ p.trace, a.Aside) ∧ (∀ a ∈ after, a.Aside) ∧
    log = (c.run p).trace ++ after

theorem runX11_life (common : CommonOptions) (o : CopyCommand.CopyOpts) (data : CopyData)
    (p : Process) : ∃ life, (CopyCommand.runX11 common o data p).2.trace = p.trace ++ life ∧
      (life = [] ∨ ∃ a rest, life = a :: rest ∧ a.onX = true) := by
  have hlives := CopyCommand.runX11_lives common o data p
  rcases hrun : CopyCommand.runX11 common o data p with ⟨e | n, q⟩
  · obtain ⟨life, htrace, hlife⟩ := hlives.error hrun rfl
    exact ⟨life, htrace, hlife.onX⟩
  · obtain ⟨life, htrace, hlife⟩ := hlives.ok hrun rfl
    exact ⟨life, htrace, hlife.onX⟩

theorem copy_client (common : CommonOptions) (o : CopyCommand.CopyOpts) (hkind : branch kind = .x11)
    {p : Process} (hp : p.trace = []) :
    ∃ c, ClientOf ((Job.copy common o kind).perform p).2.trace (.copy common o kind) c ∧
      RanAs ((Job.copy common o kind).perform p).2.trace c := by
  have hreads := CopyCommand.collectData_reads o p
  rcases hcollect : collectData o p with ⟨e | data, q⟩
  · obtain ⟨input, log, htrace, hlog, -⟩ := hreads.error hcollect rfl
    rw [hp, List.nil_append] at htrace
    have hrun : (Job.copy common o kind).perform p = (.error e, q) := bind_error hcollect
    refine ⟨_, .reading, .fresh [], q.trace, List.forall_mem_nil _, htrace ▸ reads_aside hlog, ?_⟩
    rw [hrun]
    rfl
  · obtain ⟨input, ⟨log, htrace, hlog, hinput⟩, rfl⟩ := hreads.ok hcollect rfl
    rw [hp, List.nil_append] at htrace
    have hrun : (Job.copy common o kind).perform p =
        CopyCommand.runX11 common o (published o input) q :=
      (bind_ok hcollect).trans (congrFun (if_pos hkind) q)
    obtain ⟨life, htrace', hlife⟩ := runX11_life common o (published o input) q
    rw [hrun]
    refine ⟨.copy common o (published o input), ?_, q, [], htrace ▸ reads_aside hlog,
      List.forall_mem_nil _, (List.append_nil _).symm⟩
    rw [htrace', htrace, ← hinput, ← inputOf_append hlog hlife]
    exact .copy

theorem receive_x11 (common : CommonOptions) (o : PasteOpts) (hkind : branch kind = .x11) :
    PasteCommand.receive common o kind =
      X11Backend.paste common.display common.selection o.type o.listTypes := by
  rw [PasteCommand.receive, hkind]

theorem paste_client (common : CommonOptions) (o : PasteOpts) (hkind : branch kind = .x11)
    {p : Process} (hp : p.trace = []) :
    RanAs ((Job.paste common o kind).perform p).2.trace
      (.paste common.display common.selection o.type o.listTypes) := by
  have hreceive := receive_x11 common o hkind
  refine ⟨p, ?_⟩
  rcases hpaste : X11Backend.paste common.display common.selection o.type o.listTypes p with
    ⟨e | r, q⟩
  · have hrun : (Job.paste common o kind).perform p = (.error e, q) :=
      bind_error ((congrFun hreceive p).trans hpaste)
    refine ⟨[], hp ▸ List.forall_mem_nil _, List.forall_mem_nil _, ?_⟩
    rw [hrun, Client.run, hpaste, List.append_nil]
  · have hrun : (Job.paste common o kind).perform p = _ :=
      bind_ok ((congrFun hreceive p).trans hpaste)
    have haside : Within (Process.Logs Action.Aside) (if r.1 = true then PasteCommand.output o r.2
        else pure 1 : Prog Halt Process ℕ) :=
      Within.ite (PasteCommand.output_aside o r.2) (Within.pure _)
    obtain ⟨after, htrace, -, hafter⟩ := (haside q).log
    refine ⟨after, hp ▸ List.forall_mem_nil _, hafter, ?_⟩
    rw [hrun, Client.run, hpaste]
    exact htrace

/-- Whatever has become of a command, it has been a client. -/
theorem client_of_job (hi : i.OnX11) {p : Process} (hp : p.trace = []) :
    ∃ c, ClientOf (i.perform p).2.trace i c ∧ RanAs (i.perform p).2.trace c := by
  cases i with
  | copy common o kind => exact copy_client common o hi hp
  | paste common o kind => exact ⟨_, .paste, paste_client common o hi hp⟩
  | _ => cases hi

theorem Commands.session (h : Commands t jobs log) :
    ∃ clients, (∀ w, ClientOf (logOf w log) (jobs w) (clients w)) ∧ Session t clients log := by
  have hclient : ∀ w, ∃ c, ClientOf (logOf w log) (jobs w) c ∧ RanAs (logOf w log) c := by
    intro w
    obtain ⟨kind, argv, p, hp, hline, hlog⟩ := h.runs w
    rw [hlog, main_line hline]
    exact client_of_job (h.onX11 w) hp
  choose clients his hruns using hclient
  exact ⟨clients, his, h.conforms, hruns⟩

theorem AskedOf.published (hsession : Session t clients log)
    (his : ∀ w, ClientOf (logOf w log) (jobs w) (clients w)) {sel : Selection} {target : Atom}
    {data : CopyData} (h : AskedOf t clients log w sel target data) :
    Published t jobs log w sel target data := by
  obtain ⟨before, after, v, property, common, o, hlog, howner, hclient, hsel⟩ := h
  have hlatest : Latest before v (selectionAtom (atomsOf t.atomOf) sel) :=
    Session.latest (hlog ▸ hsession) howner
  have hv := his v
  rw [hclient] at hv
  generalize hjob : jobs v = job at hv
  cases hv with
  | @copy _ _ kind => exact ⟨before, after, v, property, common, o, kind, hlog, hlatest, hjob, hsel, rfl⟩

end

section

variable {t : AtomTable} {jobs : Window → Job} {log : List (Window × Action)} {w : Window}

/-- A paste command that succeeds prints the types that the copy publishes that was the last to claim
the selection when the paste asked for them, or the payload of the one that was the last when the paste
asked for that, whatever any number of other commands do at the same time. -/
theorem Commands.paste_prints (h : Commands t jobs log) {common : CommonOptions} {o : PasteOpts}
    {kind kind' : BackendKind} {argv : List Text} (hjob : jobs w = .paste common o kind')
    (hline : Line kind argv (jobs w)) {p q : Process} (hp : p.trace = [])
    (hrun : main kind argv p = (.ok 0, q)) (hlog : logOf w log = q.trace) :
    ∃ out, Printed o out q.trace ∧
      (∃ data, Published t jobs log w common.selection (t.atomOf (text "TARGETS")) data ∧
        out.available = typeNames (atomsOf t.atomOf) t.nameOf
          ((advertised t.atomOf data.mimeTypes).map Target.atom)) ∧
      (o.listTypes = false → out.mime = chooseMime out.available o.type ∧
        (text "INCR" ∉ out.available →
          ∃ data, Published t jobs log w common.selection (targetOf t out.mime) data ∧
            out.bytes = counted data.bytes)) := by
  obtain ⟨clients, his, hsession⟩ := h.session
  have hclient := his w
  rw [hjob] at hclient
  generalize hc : clients w = c at hclient
  cases hclient
  rw [main_line hline, hjob] at hrun
  have honX11 : branch kind' = .x11 := by
    have h := h.onX11 w
    rwa [hjob] at h
  obtain ⟨⟨ok, out⟩, q₁, hpaste, hrun⟩ := bind_eq_ok hrun
  rw [receive_x11 common o honX11] at hpaste
  have hrun : (if ok = true then PasteCommand.output o out else pure 1) q₁ = (.ok 0, q) := hrun
  cases ok with
  | false => cases hrun
  | true =>
  have houtput : PasteCommand.output o out q₁ = (.ok 0, q) := hrun
  obtain ⟨printed, htrace, hprinted⟩ := (PasteCommand.output_prints o out q₁).ok houtput rfl rfl
  obtain ⟨printed', htrace', -, haside⟩ := ((PasteCommand.output_aside o out).of_eq houtput).log
  obtain rfl : printed' = printed := List.append_cancel_left (htrace'.symm.trans htrace)
  have hmute : ∀ a ∈ q₁.trace, a.Mute := by
    obtain ⟨log', htrace', -, hlog'⟩ := ((X11Backend.paste_mute _ _ _ _).of_eq hpaste).log
    rw [htrace', hp, List.nil_append]
    exact hlog'
  obtain ⟨htypes, hpayload⟩ := hsession.served hc (hp ▸ List.forall_mem_nil _) hpaste
    (hlog.trans htrace)
  refine ⟨out, htrace ▸ hprinted.before hmute, ?_, fun hlist => ?_⟩
  · obtain ⟨data, hasked, hnames⟩ := htypes
    exact ⟨data, hasked.published hsession his, hnames⟩
  · obtain ⟨hmime, hoffered⟩ := paste_chosen hpaste hlist
    refine ⟨hmime, fun hincr => ?_⟩
    obtain ⟨data, hasked, hbytes⟩ := hpayload hlist fun h => hincr (h ▸ hoffered)
    exact ⟨data, hasked.published hsession his, hbytes⟩

end

/-! ## A copy and a paste -/

def copying : Process :=
  .fresh ([.read (.ok [0x68, 0x69]), .read (.ok [])] ++ connected 3 42 ++
    [.xGetSelectionOwner (some 42),
      .xWaitForEvent (some (.selectionRequest ⟨0, 50, 300, 301, 307⟩)),
      .xWaitForEvent (some (.selectionRequest ⟨0, 50, 300, 305, 307⟩))])

def pasting : Process :=
  .fresh (connected 4 50 ++ [.clock 0, .xPollForEvent none, .clock 1, .poll (.ok (.ready true)),
    .xPollForEvent (some (.selectionNotify ⟨0, 50, 300, 301, 307⟩)),
    .xGetProperty (some ⟨atomAtom, u32Bytes 301 ++ u32Bytes 305, 0⟩), .clock 5,
    .xPollForEvent (some (.selectionNotify ⟨0, 50, 300, 305, 307⟩)),
    .xGetProperty (some ⟨305, [0x68, 0x69], 0⟩), .write (.wrote 1), .write (.wrote 1),
    .write (.wrote 1)])

def onX11 : List GlobalOption := [.separate .protocol true (text "x11")]

def onX11Options : CommonOptions := (onX11.foldl GlobalOption.apply .new).toCommonOptions

def copyWords : List CopyCommand.Argument := [.flag .foreground false, .type false (text "text/plain")]

def pair (w : Window) : Job :=
  if w = 42 then .copy onX11Options (copyWords.foldl CopyCommand.Argument.apply .new) .x11
  else .paste onX11Options .new .x11

def pairStart (w : Window) : Process :=
  if w = 42 then copying else if w = 50 then pasting else .fresh []

def pairLine (w : Window) : List Text :=
  onX11.flatMap GlobalOption.spell ++
    if w = 42 then text "copy" :: copyWords.flatMap CopyCommand.Argument.spell else [text "paste"]

theorem pairLine_pair (w : Window) : Line .auto (pairLine w) (pair w) := by
  by_cases hw : w = 42
  · rw [pairLine, pair, if_pos hw, if_pos hw]
    exact .command onX11 (.copy copyWords rfl (by decide))
  · rw [pairLine, pair, if_neg hw, if_neg hw]
    exact .command onX11 (.paste [] rfl (by decide))

def pairTrace (w : Window) : List Action := ((pair w).perform (pairStart w)).2.trace

/-- The paste connects while the copy does, and waits while it is answered. -/
@[irreducible] def woven : List (Window × Action) :=
  let copy := pairTrace 42
  let paste := pairTrace 50
  (paste.take 5).map (fun a => (50, a)) ++ (copy.take 14).map (fun a => (42, a)) ++
    ((paste.drop 5).take 10).map (fun a => (50, a)) ++ ((copy.drop 14).take 3).map (fun a => (42, a)) ++
    ((paste.drop 15).take 4).map (fun a => (50, a)) ++ (copy.drop 17).map (fun a => (42, a)) ++
    (paste.drop 19).map (fun a => (50, a))

theorem woven_permitted : XServer.permitsAll table .initial woven = true := by decide +kernel

theorem logOf_woven (w : Window) : logOf w woven = pairTrace w := by
  unfold woven
  by_cases h42 : w = 42
  · subst h42
    simp only [logOf_append, logOf_map_self, logOf_map_of_ne (show (50 : Window) ≠ 42 by decide),
      List.nil_append, List.append_nil]
    rw [← List.take_add, List.take_append_drop]
  by_cases h50 : w = 50
  · subst h50
    simp only [logOf_append, logOf_map_self, logOf_map_of_ne (show (42 : Window) ≠ 50 by decide),
      List.append_nil]
    rw [← List.take_add, ← List.take_add, List.take_append_drop]
  · simp only [logOf_append, logOf_map_of_ne (Ne.symm h42), logOf_map_of_ne (Ne.symm h50),
      List.append_nil]
    unfold pairTrace pair pairStart
    rw [if_neg h42, if_neg h42, if_neg h50]
    rfl

theorem commands_woven : Commands table pair woven where
  conforms := XServer.conforms_of_permitsAll woven_permitted
  onX11 w := by
    unfold pair
    split_ifs <;> rfl
  runs w := by
    refine ⟨.auto, pairLine w, pairStart w, ?_, pairLine_pair w, ?_⟩
    · unfold pairStart
      split_ifs <;> rfl
    · rw [logOf_woven, main_line (pairLine_pair w), pairTrace]

theorem perform_pasting : ((pair 50).perform (pairStart 50)).1 = .ok 0 := by decide +kernel

/-- The paste prints the text of the copy. -/
theorem paste_prints_hi : ∃ out, Printed .new out (pairTrace 50) ∧
    (∃ data, Published table pair woven 50 .regular (table.atomOf (text "TARGETS")) data ∧
      out.available = typeNames (atomsOf table.atomOf) table.nameOf
        ((advertised table.atomOf data.mimeTypes).map Target.atom)) ∧
    (false = false → out.mime = chooseMime out.available [] ∧
      (text "INCR" ∉ out.available → ∃ data,
        Published table pair woven 50 .regular (targetOf table out.mime) data ∧
          out.bytes = counted data.bytes)) := by
  have hjob : pair 50 = .paste onX11Options .new .x11 := if_neg (by decide)
  have hrun : main .auto (pairLine 50) (pairStart 50) = (.ok 0, ((pair 50).perform (pairStart 50)).2) := by
    rw [main_line (pairLine_pair 50), ← perform_pasting]
  exact commands_woven.paste_prints hjob (pairLine_pair 50) rfl hrun (logOf_woven 50)

end X11

end WlClip
