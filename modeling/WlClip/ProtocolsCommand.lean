import WlClip.PasteOutput
import WlClip.Progress
import WlClip.Registry
import Mathlib.Data.List.Sort

/-!
# The protocols command

`run_protocols` of `protocols.cpp`. It prints the globals in the order of their interfaces and, where
there are several with one, of their names. What it prints depends on what the registry holds at the
end only, and not on the order in which it came by that.
-/

open ScriptedProgram ScriptedProgram.Prog

namespace WlClip

namespace ProtocolsCommand

/-! ## The command -/

inductive Arguments
  | list (verbose : Bool)
  | help
  | unknown (a : Text)
  deriving DecidableEq

def parse : List Text → Bool → Arguments
  | [], verbose => .list verbose
  | a :: args, _ =>
    if a = text "-v" ∨ a = text "--verbose" then parse args true
    else if a = text "-h" ∨ a = text "--help" then .help
    else .unknown a

def less (a b : GlobalInfo) : Bool :=
  if a.interface ≠ b.interface then a.interface < b.interface else a.name < b.name

def Ordered (a b : GlobalInfo) : Prop := less b a = false

instance : DecidableRel Ordered := fun a b => inferInstanceAs (Decidable (less b a = false))

def sorted (globals : List GlobalInfo) : List GlobalInfo := globals.insertionSort Ordered

def decimal (n : UInt32) : Text := text (toString n)

def line (verbose : Bool) (g : GlobalInfo) : Text :=
  if verbose then
    g.interface ++ text "\t" ++ decimal g.version ++ text "\t" ++ decimal g.name ++ text "\n"
  else g.interface ++ text " v" ++ decimal g.version ++ text "\n"

def listing (verbose : Bool) (globals : List GlobalInfo) : Text :=
  (if verbose then text "interface\tversion\tname\n" else []) ++ globals.flatMap (line verbose)

/-- What goes through the buffered stream is written when that is flushed. -/
def print (out : Text) : Prog Halt Process Unit := do
  if out = [] then return ()
  else
    let _ ← Process.write PasteCommand.stdoutFileno out
    return ()

def listGlobals (common : CommonOptions) (verbose : Bool) : Prog Halt State ℕ := do
  if ← State.connect common.display then
    State.initialSync
    let globals ← Prog.read State.globals
    State.sys (print (listing verbose (sorted globals)))
    return 0
  else return 1

def runProtocols (common : CommonOptions) (args : List Text) : Prog Halt Process ℕ :=
  match parse args false with
  | .help => return 0
  | .unknown _ => return 2
  | .list verbose => State.run (listGlobals common verbose)

/-! ## What is listed -/

/-- `out` lists the globals, whatever their order. -/
def Lists (verbose : Bool) (globals : List GlobalInfo) (out : Text) : Prop :=
  ∃ gs : List GlobalInfo, gs.Perm globals ∧ gs.Pairwise Ordered ∧ out = listing verbose gs

theorem less_iff {a b : GlobalInfo} : less a b = true ↔
    a.interface < b.interface ∨ a.interface = b.interface ∧ a.name < b.name := by
  unfold less
  by_cases h : a.interface = b.interface
  · rw [if_neg (not_not.mpr h), decide_eq_true_iff, h]
    simp [List.lt_irrefl]
  · rw [if_pos h, decide_eq_true_iff]
    simp [h]

theorem less_asymm {a b : GlobalInfo} (h : less a b = true) : less b a = false := by
  rw [← Bool.not_eq_true, less_iff]
  rcases less_iff.mp h with h | ⟨heq, h⟩
  · rintro (h' | ⟨heq, -⟩)
    · exact List.lt_asymm h h'
    · rw [heq] at h
      exact List.lt_irrefl _ h
  · rintro (h' | ⟨-, h'⟩)
    · rw [heq] at h'
      exact List.lt_irrefl _ h'
    · exact UInt32.lt_asymm h h'

theorem less_trans {a b c : GlobalInfo} (h : less a b = true) (h' : less b c = true) :
    less a c = true := by
  rw [less_iff] at h h' ⊢
  rcases h with h | ⟨heq, h⟩ <;> rcases h' with h' | ⟨heq', h'⟩
  · exact .inl (List.lt_trans h h')
  · exact .inl (heq' ▸ h)
  · exact .inl (heq ▸ h')
  · exact .inr ⟨heq.trans heq', UInt32.lt_trans h h'⟩

/-- Two globals that stand in no order have the same interface and name. -/
theorem ordered_antisymm {a b : GlobalInfo} (h : Ordered a b) (h' : Ordered b a) :
    a.interface = b.interface ∧ a.name = b.name := by
  rw [Ordered, ← Bool.not_eq_true, less_iff, not_or, not_and] at h h'
  have hinterface := List.le_antisymm (List.not_lt.mp h.1) (List.not_lt.mp h'.1)
  exact ⟨hinterface, UInt32.le_antisymm (UInt32.not_lt.mp (h.2 hinterface.symm))
    (UInt32.not_lt.mp (h'.2 hinterface))⟩

theorem ordered_iff {a b : GlobalInfo} : Ordered a b ↔
    less a b = true ∨ a.interface = b.interface ∧ a.name = b.name := by
  constructor
  · intro h
    rcases hless : less a b with _ | _
    · exact .inr (ordered_antisymm h hless)
    · exact .inl rfl
  · rintro (h | ⟨hinterface, hname⟩)
    · exact less_asymm h
    · rw [Ordered, ← Bool.not_eq_true, less_iff, hinterface, hname]
      simp [List.lt_irrefl]

theorem ordered_trans {a b c : GlobalInfo} (h : Ordered a b) (h' : Ordered b c) : Ordered a c := by
  rcases ordered_iff.mp h with hless | ⟨hinterface, hname⟩
  · rcases ordered_iff.mp h' with hless' | ⟨hinterface, hname⟩
    · exact less_asymm (less_trans hless hless')
    · rw [less_iff, hinterface, hname] at hless
      exact less_asymm (less_iff.mpr hless)
  · rw [Ordered, ← Bool.not_eq_true, less_iff] at h' ⊢
    rwa [hinterface, hname]

theorem ordered_total (a b : GlobalInfo) : Ordered a b ∨ Ordered b a := by
  rcases h : less b a with _ | _
  · exact .inl h
  · exact .inr (less_asymm h)

instance : IsTrans GlobalInfo Ordered := ⟨fun _ _ _ => ordered_trans⟩

instance : Std.Total Ordered := ⟨ordered_total⟩

theorem lists_sorted (verbose : Bool) (globals : List GlobalInfo) :
    Lists verbose globals (listing verbose (sorted globals)) :=
  ⟨_, List.perm_insertionSort Ordered globals, List.pairwise_insertionSort Ordered globals, rfl⟩

/-- Where no two globals have the same name there is one listing. -/
theorem Lists.eq {verbose : Bool} {globals globals' : List GlobalInfo} {out out' : Text}
    (h : Lists verbose globals out) (h' : Lists verbose globals' out')
    (hperm : globals.Perm globals') (hnames : (globals.map GlobalInfo.name).Nodup) : out = out' := by
  obtain ⟨gs, hgs, hordered, rfl⟩ := h
  obtain ⟨gs', hgs', hordered', rfl⟩ := h'
  have hsame : gs.Perm gs' := hgs.trans (hperm.trans hgs'.symm)
  refine congrArg _ (hsame.eq_of_pairwise (fun a b ha hb hab hba => ?_) hordered hordered')
  have hinj := List.inj_on_of_nodup_map hnames
  exact hinj (hgs.mem_iff.mp ha) (hperm.mem_iff.mpr (hgs'.mem_iff.mp hb)) (ordered_antisymm hab hba).2

end ProtocolsCommand

/-! ## What the registry says -/

def WlEvent.registry : WlEvent → Option RegistryEvent
  | .global name interface version => some (.global ⟨name, interface, version⟩)
  | .globalRemove name => some (.globalRemove name)
  | _ => none

/-- The events of the registry that are dispatched before a call returns. -/
def Action.announced : Action → List RegistryEvent
  | .call .displayRoundtrip (.displayRoundtrip events _) => events.filterMap WlEvent.registry
  | _ => []

/-- The process has gone on, and has the globals that are left after what the registry has said. -/
def State.Registers (s s' : State) : Prop :=
  ∃ log, s'.trace = s.trace ++ log ∧
    s'.globals = (log.flatMap Action.announced).foldl RegistryEvent.next s.globals

instance : IsPreorder State State.Registers where
  refl s := ⟨[], by simp, rfl⟩
  trans s s' s'' := by
    rintro ⟨log, htrace, hglobals⟩ ⟨log', htrace', hglobals'⟩
    refine ⟨log ++ log', by rw [htrace', htrace, List.append_assoc], ?_⟩
    rw [hglobals', hglobals, List.flatMap_append, List.foldl_append]

namespace Listening

theorem hear_globals (e : WlEvent) (l : Listening Unit) :
    (hear (fun _ => (pure () : Prog Halt (Listening Unit) Unit)) e l).2.globals =
      e.registry.toList.foldl RegistryEvent.next l.globals := by
  cases e with
  | global name interface version =>
      exact (State.onGlobal_effect ⟨name, interface, version⟩ l.toState).1
  | globalRemove name => exact (State.onGlobalRemove_effect name l.toState).1
  | _ => rfl

theorem hearAll_globals (es : List WlEvent) (l : Listening Unit) :
    (hearAll (fun _ => (pure () : Prog Halt (Listening Unit) Unit)) es l).2.globals =
      (es.filterMap WlEvent.registry).foldl RegistryEvent.next l.globals := by
  induction es generalizing l with
  | nil => rfl
  | cons e es ih =>
      obtain ⟨_, l', hear⟩ := (hear_halts (fun _ => Halts.pure ()) e).returns l
      have hglobals := hear_globals e l
      rw [hear] at hglobals
      rw [hearAll, bind_ok hear, ih, hglobals, ← List.foldl_append]
      cases e <;> rfl

theorem roundtrip_registers :
    Within (fun l l' : Listening Unit => State.Registers l.toState l'.toState)
      (roundtrip fun _ => (pure () : Prog Halt (Listening Unit) Unit)) := by
  intro l
  unfold roundtrip
  rcases hask : Process.displayRoundtrip l.toProcess with ⟨e | ⟨events, ok⟩, p⟩
  · have hsys : (sys Process.displayRoundtrip : Prog Halt (Listening Unit) _) l =
        (.error e, { l with toProcess := p }) := by
      simp only [sys, onState, State.sys, Prog.zoom_apply, hask]
    obtain ⟨-, rfl⟩ := Process.ask_error hask
    rw [bind_error hsys]
    exact refl l.toState
  · have hsys : (sys Process.displayRoundtrip : Prog Halt (Listening Unit) _) l =
        (.ok (events, ok), { l with toProcess := p }) := by
      simp only [sys, onState, State.sys, Prog.zoom_apply, hask]
    obtain ⟨r, rest, -, hreply, rfl⟩ := Process.ask_ok hask
    have hcall : (Action.call .displayRoundtrip r).announced = events.filterMap WlEvent.registry := by
      cases r <;> cases hreply
      rfl
    rw [bind_ok hsys, bind_pure_state]
    have hglobals := hearAll_globals events { l with
      toProcess := { l.toProcess with script := rest, trace := l.trace ++ [.call .displayRoundtrip r] } }
    obtain ⟨log, htrace, -, hlog⟩ := (hearAll_logged (A := fun a => a.announced = [])
      (fun _ _ => rfl) (fun _ => Within.pure _) events { l with
        toProcess := { l.toProcess with script := rest,
                                        trace := l.trace ++ [.call .displayRoundtrip r] } }).log
    refine ⟨.call .displayRoundtrip r :: log, htrace.trans (List.append_assoc ..), ?_⟩
    rw [hglobals, List.flatMap_cons, hcall, List.flatMap_eq_nil_iff.mpr hlog, List.append_nil]

end Listening

theorem State.initialSync_registers : Within State.Registers State.initialSync := by
  have hsync : Within (fun l l' : Listening Unit => State.Registers l.toState l'.toState) (do
      let _ ← Listening.roundtrip fun _ => (pure () : Prog Halt (Listening Unit) Unit)
      let _ ← Listening.roundtrip fun _ => (pure () : Prog Halt (Listening Unit) Unit)
      return ()) :=
    Within.bind Listening.roundtrip_registers fun _ =>
      Within.bind Listening.roundtrip_registers fun _ => Within.pure _
  exact hsync.zoom fun _ _ h => h

namespace ProtocolsCommand

theorem print_output {out : Text} {p q : Process} (h : print out p = (.ok (), q)) :
    ∃ log, q.trace = p.trace ++ log ∧ log.flatMap Action.output = out ∧
      ∀ a ∈ log, a.announced = [] := by
  unfold print at h
  split_ifs at h with hout
  · cases h
    exact ⟨[], by simp, by simp [hout], by simp⟩
  · obtain ⟨_, q', hwrite, hq⟩ := bind_eq_ok h
    cases hq
    rcases Process.write_cases PasteCommand.stdoutFileno out p with h | ⟨r, rest, _, -, h⟩
    · cases hwrite.symm.trans h
    · obtain ⟨-, rfl⟩ := Prod.mk.inj (hwrite.symm.trans h)
      refine ⟨[.call (.write PasteCommand.stdoutFileno out) (.write r)], rfl, ?_, by simp [Action.announced]⟩
      simp [Action.output]

/-- A successful run lists the globals that it has been told of and that have not been removed. -/
theorem listGlobals_lists {common : CommonOptions} {verbose : Bool} {s s' : State}
    (hs : s.globals = []) (h : listGlobals common verbose s = (.ok 0, s')) :
    ∃ log, s'.trace = s.trace ++ log ∧
      Lists verbose (RegistryEvent.alive (log.flatMap Action.announced)) (log.flatMap Action.output) := by
  have hconnects : Within (State.Logged fun a => Action.Mute a ∧ a.announced = [])
      (State.connect common.display) :=
    State.sys_logged (Process.ask_logs fun _ _ _ => ⟨rfl, rfl⟩)
  obtain ⟨connected, s₁, hconnect, hrun⟩ := bind_eq_ok h
  obtain ⟨start, hstart, -, hquiet⟩ := (hconnects.of_eq hconnect).log
  have hglobals₁ : s₁.globals = [] := by
    obtain ⟨-, rfl⟩ := Prod.mk.inj hconnect
    exact hs
  split_ifs at hrun
  · obtain ⟨_, s₂, hsync, hrun⟩ := bind_eq_ok hrun
    obtain ⟨sync, htrace, hglobals⟩ := State.initialSync_registers.of_eq hsync
    obtain ⟨sync', htrace', -, hmute⟩ := (State.initialSync_mute.of_eq hsync).log
    obtain rfl : sync' = sync := List.append_cancel_left (htrace'.symm.trans htrace)
    obtain ⟨globals, s₃, hread, hrun⟩ := bind_eq_ok hrun
    cases hread
    obtain ⟨_, s₄, hsys, hrun⟩ := bind_eq_ok hrun
    cases hrun
    obtain ⟨hret, hstate⟩ := Prod.mk.inj hsys
    obtain ⟨out, hout, houtput, hunheard⟩ := print_output (Prod.ext hret rfl)
    refine ⟨start ++ (sync' ++ out), ?_, ?_⟩
    · rw [← hstate, ← List.append_assoc, ← hstart, ← List.append_assoc, ← htrace]
      exact hout
    · have hannounced : (start ++ (sync' ++ out)).flatMap Action.announced =
          sync'.flatMap Action.announced := by
        rw [List.flatMap_append, List.flatMap_append,
          List.flatMap_eq_nil_iff.mpr fun a ha => (hquiet a ha).2,
          List.flatMap_eq_nil_iff.mpr hunheard, List.nil_append, List.append_nil]
      have houtputs : (start ++ (sync' ++ out)).flatMap Action.output =
          listing verbose (sorted s₂.globals) := by
        rw [List.flatMap_append, List.flatMap_append,
          List.flatMap_eq_nil_iff.mpr fun a ha => (hquiet a ha).1, List.flatMap_eq_nil_iff.mpr hmute,
          List.nil_append, List.nil_append, houtput]
      rw [hannounced, houtputs, RegistryEvent.alive, ← hglobals₁, ← hglobals]
      exact lists_sorted verbose s₂.globals
  · cases hrun

/-- A command that succeeds lists the globals that it has been told of and that have not been removed
again, and what it prints is the same in whatever order it was told of them. -/
theorem runProtocols_lists {common : CommonOptions} {args : List Text} {verbose : Bool}
    (hargs : parse args false = .list verbose) {p q : Process}
    (h : runProtocols common args p = (.ok 0, q)) :
    ∃ log, q.trace = p.trace ++ log ∧
      Lists verbose (RegistryEvent.alive (log.flatMap Action.announced)) (log.flatMap Action.output) ∧
      ∀ globals, globals.Perm (RegistryEvent.alive (log.flatMap Action.announced)) →
        (globals.map GlobalInfo.name).Nodup →
          log.flatMap Action.output = listing verbose (sorted globals) := by
  simp only [runProtocols, hargs, State.run, Prog.zoom_apply, Prod.mk.injEq] at h
  obtain ⟨hret, rfl⟩ := h
  obtain ⟨log, htrace, hlists⟩ := listGlobals_lists rfl (Prod.ext hret rfl)
  refine ⟨log, htrace, hlists, fun globals hperm hnames => ?_⟩
  exact ((lists_sorted verbose globals).eq hlists hperm hnames).symm

/-- A compositor that announces three globals, removes one and announces another. -/
def announcing : Process :=
  .fresh [.displayConnect true,
    .displayRoundtrip [.global 3 kIfWlSeat 8, .global 9 kIfWlMgr 3, .globalRemove 9,
      .global 2 kIfWlMgr 3] true,
    .displayRoundtrip [.global 1 kIfWlSeat 7] true, .write (.wrote 54)]

theorem runProtocols_announcing :
    (runProtocols CopyCommand.defaultOptions [] announcing).2.output =
        text "wl_data_device_manager v3\nwl_seat v7\nwl_seat v8\n" ∧
      ∃ log, (runProtocols CopyCommand.defaultOptions [] announcing).2.trace = announcing.trace ++ log ∧
        Lists false (RegistryEvent.alive (log.flatMap Action.announced)) (log.flatMap Action.output) ∧
        ∀ globals, globals.Perm (RegistryEvent.alive (log.flatMap Action.announced)) →
          (globals.map GlobalInfo.name).Nodup →
            log.flatMap Action.output = listing false (sorted globals) := by
  have hret : (runProtocols CopyCommand.defaultOptions [] announcing).1 = .ok 0 := by decide +kernel
  refine ⟨by decide +kernel, runProtocols_lists rfl (Prod.ext hret rfl)⟩

end ProtocolsCommand

end WlClip
