import WlClip.X11Replies

/-!
# What an X11 copy advertises and what it gives

The targets are worked out once from the list of types, and a request is looked at by rules of its
own. Over the names that the server's atoms stand for, an advertised name is that of a type which is
not textual, as far as its length in 16 bits goes, or `UTF8_STRING`; a name gets the payload if it is
one of the text targets and some type is textual, or if the type that it was first made of is not
empty.
-/

open ScriptedProgram ScriptedProgram.Prog LittleEndian

namespace WlClip

namespace X11

/-! ## Names -/

/-- The names that the code compares a target with. -/
def protocolNames : List Text :=
  [text "TARGETS", text "TIMESTAMP", text "UTF8_STRING", text "STRING", text "TEXT"]

def textNames : List Text := [text "UTF8_STRING", text "STRING", text "TEXT"]

def names (mimes : List Text) : List Text := protocolNames ++ mimes ++ mimes.map internName

/-- Different names have different atoms other than 0, and `STRING` has that which X defines. -/
structure Assigns (atomOf : Text → Atom) (names : List Text) : Prop where
  nonzero : ∀ n ∈ names, atomOf n ≠ 0
  injective : ∀ n ∈ names, ∀ n' ∈ names, atomOf n = atomOf n' → n = n'
  string : atomOf (text "STRING") = atomString

def named (mimes : List Text) : List Text := mimes.filter fun m => !isTextual m

theorem mem_named {mimes : List Text} {m : Text} :
    m ∈ named mimes ↔ m ∈ mimes ∧ isTextual m = false := by
  simp [named]

theorem internName_length (m : Text) : (internName m).length < 2 ^ 16 := by
  have hlt := Nat.mod_lt m.length (show 0 < 2 ^ 16 by decide)
  rw [internName, List.length_take]
  omega

theorem internName_eq {m : Text} (h : m.length < 2 ^ 16) : internName m = m := by
  rw [internName, Nat.mod_eq_of_lt h, List.take_length]

/-- The name that was advertised, or made of some type. -/
def Offered (mimes : List Text) (n : Text) : Prop :=
  n = text "TARGETS" ∨ (∃ m ∈ named mimes, internName m = n) ∨
    n = text "UTF8_STRING" ∧ mimes.any isTextual = true

/-- A request for the name gets the payload. -/
def Given (mimes : List Text) (n : Text) : Prop :=
  n ≠ text "TARGETS" ∧ n ≠ text "TIMESTAMP" ∧
    if n ∈ textNames then mimes.any isTextual = true
    else ∃ m, (named mimes).find? (fun m => internName m = n) = some m ∧ m ≠ []

variable {atomOf : Text → Atom} {mimes : List Text} {n m : Text}

theorem protocolNames_sub (h : n ∈ protocolNames) : n ∈ names mimes :=
  List.mem_append_left _ (List.mem_append_left _ h)

theorem mimes_sub (h : m ∈ mimes) : m ∈ names mimes :=
  List.mem_append_left _ (List.mem_append_right _ h)

theorem internName_sub (h : m ∈ mimes) : internName m ∈ names mimes :=
  List.mem_append_right _ (List.mem_map_of_mem h)

theorem Offered.sub (h : Offered mimes n) : n ∈ names mimes := by
  rcases h with rfl | ⟨m, hm, rfl⟩ | ⟨rfl, -⟩
  · exact protocolNames_sub (by decide)
  · exact internName_sub (mem_named.mp hm).1
  · exact protocolNames_sub (by decide)

theorem Assigns.eq_iff (h : Assigns atomOf (names mimes)) {n' : Text} (hn : n ∈ names mimes)
    (hn' : n' ∈ names mimes) : atomOf n = atomOf n' ↔ n = n' :=
  ⟨h.injective n hn n' hn', congrArg atomOf⟩

/-! ## The advertised targets -/

theorem mem_candidates {a : Atom} : a ∈ (candidates (atomsOf atomOf)
    ((named mimes).map fun m => ⟨atomOf (internName m), m⟩) mimes).map Target.atom ↔
      ∃ n, Offered mimes n ∧ a = atomOf n := by
  constructor
  · intro ha
    simp only [candidates, List.map_cons, List.map_append, List.map_map, List.mem_cons,
      List.mem_append, List.mem_map, Function.comp_apply] at ha
    rcases ha with rfl | ⟨m, hm, rfl⟩ | ha
    · exact ⟨_, .inl rfl, rfl⟩
    · exact ⟨_, .inr (.inl ⟨m, hm, rfl⟩), rfl⟩
    · by_cases htext : mimes.any isTextual = true
      · rw [if_pos htext] at ha
        obtain ⟨t, ht, rfl⟩ := ha
        obtain rfl := List.mem_singleton.mp ht
        exact ⟨_, .inr (.inr ⟨rfl, htext⟩), rfl⟩
      · rw [if_neg htext] at ha
        obtain ⟨t, ⟨⟩, -⟩ := ha
  · rintro ⟨n, rfl | ⟨m, hm, rfl⟩ | ⟨rfl, htext⟩, rfl⟩
    · simp [candidates, atomsOf]
    · have hmem : (⟨atomOf (internName m), m⟩ : Target) ∈ candidates (atomsOf atomOf)
          ((named mimes).map fun m => ⟨atomOf (internName m), m⟩) mimes :=
        List.mem_cons_of_mem _ (List.mem_append_left _ (List.mem_map_of_mem hm))
      exact List.mem_map_of_mem hmem
    · simp [candidates, atomsOf, htext]

theorem mem_advertised (h : Assigns atomOf (names mimes)) {a : Atom} :
    a ∈ (advertised atomOf mimes).map Target.atom ↔ ∃ n, Offered mimes n ∧ a = atomOf n := by
  constructor
  · intro ha
    have hzero : a ≠ 0 := by
      obtain ⟨t, ht, rfl⟩ := List.mem_map.mp ha
      exact (advertised_nil.addAll _).nonzero t ht
    exact mem_candidates.mp ((mem_addAll hzero [] _).mp ha)
  · rintro ⟨n, hn, rfl⟩
    exact (mem_addAll (h.nonzero n hn.sub) [] _).mpr (mem_candidates.mpr ⟨n, hn, rfl⟩)

/-- The name of an advertised atom is that of the first type it was made of. -/
theorem find_advertised (h : Assigns atomOf (names mimes)) (hn : n ∈ names mimes)
    (htargets : n ≠ text "TARGETS") (htext : n ∉ textNames) :
    ((advertised atomOf mimes).find? fun t => t.atom = atomOf n).map Target.name =
      (named mimes).find? fun m => internName m = n := by
  have hfirst : ¬ (atomsOf atomOf).targets = atomOf n := fun heq =>
    htargets (h.injective n hn _ (protocolNames_sub (by decide)) heq.symm)
  have hlast : ¬ (atomsOf atomOf).utf8String = atomOf n := fun heq =>
    htext (h.injective n hn _ (protocolNames_sub (by decide)) heq.symm ▸ by decide)
  have hsame : ((named mimes).find? fun m => atomOf (internName m) = atomOf n) =
      (named mimes).find? fun m => internName m = n := by
    rw [← List.head?_filter, ← List.head?_filter]
    refine congrArg List.head? (List.filter_congr fun m hm => decide_eq_decide.mpr ?_)
    exact h.eq_iff (internName_sub (mem_named.mp hm).1) hn
  have hrest : ((if mimes.any isTextual then [⟨(atomsOf atomOf).utf8String, text "UTF8_STRING"⟩]
      else [] : List Target).find? fun t => t.atom = atomOf n) = none := by
    split_ifs
    · simp [hlast]
    · rfl
  rw [advertised, find_addAll (h.nonzero n hn), List.nil_append, candidates, List.find?_cons_of_neg
    (by simpa using hfirst), List.find?_append, hrest, Option.or_none, List.find?_map]
  change (((named mimes).find? fun m => atomOf (internName m) = atomOf n).map _).map Target.name = _
  rw [hsame, Option.map_map]
  exact Option.map_id'

/-! ## What is given -/

theorem isTextual_ne_nil (h : isTextual m = true) : m ≠ [] := by
  rintro rfl
  revert h
  decide

theorem textual_iff : (mimes.find? isTextual).getD [] ≠ [] ↔ mimes.any isTextual = true := by
  rcases hfind : mimes.find? isTextual with _ | m
  · have hnone := List.find?_eq_none.mp hfind
    simpa using hnone
  · have hm := List.find?_some hfind
    have hany : mimes.any isTextual = true :=
      List.any_eq_true.mpr ⟨m, List.mem_of_find?_eq_some hfind, hm⟩
    simp [hany, isTextual_ne_nil hm]

/-- The payload is given for the names that are to get it, if its length fits into 32 bits. -/
theorem delivers_name {sel : Selection} {data : CopyData} {ctx : CopyContext}
    (hctx : Acquired atomOf sel data ctx) (h : Assigns atomOf (names data.mimeTypes))
    (hn : n ∈ names data.mimeTypes) :
    Delivers ctx (atomOf n) ↔ Given data.mimeTypes n ∧ data.bytes.length < 2 ^ 32 := by
  have hadvertised : Advertised ctx.targets := by
    rw [hctx.targets]
    exact advertised_nil.addAll _
  have hprotocol : ∀ {n' : Text}, n' ∈ protocolNames → (atomOf n = atomOf n' ↔ n = n') :=
    fun hn' => h.eq_iff hn (protocolNames_sub hn')
  rw [delivers_iff hadvertised.length_lt, hctx.data, hctx.atoms]
  refine and_congr_left fun _ => ?_
  change (atomOf n ≠ atomOf (text "TARGETS") ∧ atomOf n ≠ atomOf (text "TIMESTAMP") ∧ _) ↔ _
  rw [Given, Ne, hprotocol (by decide), Ne, hprotocol (by decide)]
  refine and_congr_right fun htargets => and_congr_right fun htimestamp => ?_
  have htext : (atomOf n = (atomsOf atomOf).utf8String ∨ atomOf n = (atomsOf atomOf).string ∨
      atomOf n = (atomsOf atomOf).text) ↔ n ∈ textNames := by
    change (atomOf n = atomOf (text "UTF8_STRING") ∨ atomOf n = atomString ∨
      atomOf n = atomOf (text "TEXT")) ↔ _
    rw [← h.string, hprotocol (by decide), hprotocol (by decide), hprotocol (by decide)]
    simp [textNames]
  unfold matchTarget
  by_cases hmem : n ∈ textNames
  · rw [if_pos (htext.mpr hmem), if_pos hmem]
    exact textual_iff
  · rw [if_neg fun h => hmem (htext.mp h), if_neg hmem]
    have hfind := find_advertised h hn htargets hmem
    rw [← hctx.targets] at hfind
    rcases hopt : ctx.targets.find? fun t => t.atom = atomOf n with _ | t <;>
      rw [hopt] at hfind <;> rw [← hfind, hopt]
    · simp
    · have hname : internName t.name = n := by simpa using List.find?_some hfind.symm
      have hplain : ¬ (t.name = text "TARGETS" ∨ t.name = text "TIMESTAMP") := by
        rintro (heq | heq) <;> rw [heq] at hname
        · exact htargets hname.symm
        · exact htimestamp hname.symm
      simp [hplain]

/-! ## Honest lists -/

/-- No target is advertised twice, and a request for any but `TARGETS` gets the payload. -/
structure Honest (ctx : CopyContext) : Prop where
  nodup : (ctx.targets.map Target.atom).Nodup
  given : ∀ a ∈ ctx.targets.map Target.atom, a ≠ ctx.x.atoms.targets → Delivers ctx a

structure HonestData (data : CopyData) : Prop where
  payload : data.bytes.length < 2 ^ 32 ∨
    ∀ m ∈ data.mimeTypes, isTextual m = false ∧ internName m = text "TARGETS"
  timestamp : ∀ m ∈ named data.mimeTypes, internName m ≠ text "TIMESTAMP"
  text : data.mimeTypes.any isTextual = true ∨
    ∀ m ∈ named data.mimeTypes, internName m ∉ textNames
  empty : (named data.mimeTypes).find? (fun m => internName m = []) ≠ some []

section

variable {sel : Selection} {data : CopyData} {ctx : CopyContext}

theorem honest_iff (hctx : Acquired atomOf sel data ctx) (h : Assigns atomOf (names data.mimeTypes)) :
    Honest ctx ↔ ∀ n, Offered data.mimeTypes n → n ≠ text "TARGETS" →
      Given data.mimeTypes n ∧ data.bytes.length < 2 ^ 32 := by
  have hne : ∀ {n}, Offered data.mimeTypes n →
      (atomOf n ≠ ctx.x.atoms.targets ↔ n ≠ text "TARGETS") := by
    intro n hn
    rw [hctx.atoms]
    exact not_congr (h.eq_iff hn.sub (protocolNames_sub (by decide)))
  have hmem : ∀ a, a ∈ ctx.targets.map Target.atom ↔
      ∃ n, Offered data.mimeTypes n ∧ a = atomOf n := by
    intro a
    rw [hctx.targets]
    exact mem_advertised h
  constructor
  · intro hhonest n hn htargets
    exact (delivers_name hctx h hn.sub).mp
      (hhonest.given _ ((hmem _).mpr ⟨n, hn, rfl⟩) ((hne hn).mpr htargets))
  · intro hgiven
    refine ⟨?_, fun a ha htargets => ?_⟩
    · rw [hctx.targets]
      exact (advertised_nil.addAll _).nodup
    · obtain ⟨n, hn, rfl⟩ := (hmem a).mp ha
      exact (delivers_name hctx h hn.sub).mpr (hgiven n hn ((hne hn).mp htargets))

theorem first_named (hm : m ∈ named mimes) : ∃ m',
    (named mimes).find? (fun m' => internName m' = internName m) = some m' ∧
      internName m' = internName m := by
  have hsome : ((named mimes).find? fun m' => internName m' = internName m).isSome :=
    List.find?_isSome.mpr ⟨m, hm, by simp⟩
  obtain ⟨m', hfind⟩ := Option.isSome_iff_exists.mp hsome
  exact ⟨m', hfind, by simpa using List.find?_some hfind⟩

theorem offered_named (hm : m ∈ named mimes) : Offered mimes (internName m) :=
  .inr (.inl ⟨m, hm, rfl⟩)

theorem honestData_iff : (∀ n, Offered data.mimeTypes n → n ≠ text "TARGETS" →
    Given data.mimeTypes n ∧ data.bytes.length < 2 ^ 32) ↔ HonestData data := by
  constructor
  · intro h
    refine ⟨?_, fun m hm htimestamp => ?_, ?_, fun hfind => ?_⟩
    · by_contra hno
      rw [not_or] at hno
      obtain ⟨hlen, hno⟩ := hno
      apply hno
      intro m hm
      by_contra hother
      by_cases htext : isTextual m = true
      · have hany : data.mimeTypes.any isTextual = true := List.any_eq_true.mpr ⟨m, hm, htext⟩
        exact hlen (h _ (.inr (.inr ⟨rfl, hany⟩)) (by decide)).2
      · rw [Bool.not_eq_true] at htext
        exact hlen (h _ (offered_named (mem_named.mpr ⟨hm, htext⟩))
          fun htargets => hother ⟨htext, htargets⟩).2
    · have hgiven := (h _ (offered_named hm) (by rw [htimestamp]; decide)).1
      exact hgiven.2.1 htimestamp
    · by_contra hno
      rw [not_or] at hno
      obtain ⟨hany, hno⟩ := hno
      apply hno
      intro m hm hmem
      have hne : internName m ≠ text "TARGETS" := by
        rintro heq
        rw [heq] at hmem
        revert hmem
        decide
      have hgiven := (h _ (offered_named hm) hne).1.2.2
      rw [if_pos hmem] at hgiven
      exact hany hgiven
    · have hmem := List.mem_of_find?_eq_some hfind
      have hgiven := (h [] (offered_named hmem) (by decide)).1.2.2
      rw [if_neg (by decide)] at hgiven
      obtain ⟨m, hm, hne⟩ := hgiven
      exact hne (Option.some.inj (hm.symm.trans hfind))
  · rintro h n hn htargets
    have hlen : data.bytes.length < 2 ^ 32 := by
      refine h.payload.resolve_right fun hall => ?_
      rcases hn with rfl | ⟨m, hm, rfl⟩ | ⟨rfl, hany⟩
      · exact htargets rfl
      · exact htargets (hall m (mem_named.mp hm).1).2
      · obtain ⟨m, hm, htext⟩ := List.any_eq_true.mp hany
        cases (hall m hm).1.symm.trans htext
    refine ⟨?_, hlen⟩
    rcases hn with rfl | ⟨m, hm, rfl⟩ | ⟨rfl, hany⟩
    · exact absurd rfl htargets
    · refine ⟨htargets, h.timestamp m hm, ?_⟩
      by_cases hmem : internName m ∈ textNames
      · rw [if_pos hmem]
        exact h.text.resolve_right fun hall => hall m hm hmem
      · rw [if_neg hmem]
        obtain ⟨m', hfind, hname⟩ := first_named hm
        refine ⟨m', hfind, ?_⟩
        rintro rfl
        rw [← hname] at hfind
        exact h.empty hfind
    · exact ⟨by decide, by decide, by rw [if_pos (by decide)]; exact hany⟩

variable {display : Text} {p q : Process}

/-- A selection that is acquired from a server is advertised honestly exactly for these lists. -/
theorem advertised_honest_iff
    (h : acquireSelection display sel data p = (.ok (some ctx), q)) (hassigned : AssignedBy atomOf q)
    (hatoms : Assigns atomOf (names data.mimeTypes)) : Honest ctx ↔ HonestData data :=
  (honest_iff (acquireSelection_acquired h hassigned) hatoms).trans honestData_iff

end

def loaded : List Text :=
  [text "CLIPBOARD", text "TARGETS", text "TIMESTAMP", text "MULTIPLE", text "INCR",
    text "UTF8_STRING", text "TEXT", text "WLCLIP_SELECTION", text "_NET_WM_NAME"]

/-- A server that numbers the names it is asked for. -/
def numbered (others : List Text) (n : Text) : Atom :=
  if n = text "STRING" then atomString else .ofNat (300 + (loaded ++ others).idxOf n)

def picture : CopyData := ⟨[0x68, 0x69], [text "image/png", text "text/plain"]⟩

def pictureTargets : List Target := [⟨309, text "image/png"⟩, ⟨305, text "UTF8_STRING"⟩]

theorem acquireSelection_picture : acquireSelection [] .regular picture (owning [309]) =
    (.ok (some (owned pictureTargets picture)),
      (acquireSelection [] .regular picture (owning [309])).2) := Prod.ext (by decide +kernel) rfl

theorem assignedBy_picture : AssignedBy (numbered [text "image/png"])
    (acquireSelection [] .regular picture (owning [309])).2 := assignedBy_of_all (by decide +kernel)

theorem assigns_picture : Assigns (numbered [text "image/png"]) (names picture.mimeTypes) :=
  ⟨by decide +kernel, by decide +kernel, by decide +kernel⟩

theorem advertised_honest_picture : Honest (owned pictureTargets picture) :=
  (advertised_honest_iff acquireSelection_picture assignedBy_picture assigns_picture).mpr
    ⟨.inl (by decide), by decide, .inl (by decide), by decide⟩

/-- A type that is the empty string is advertised and refused. -/
theorem empty_not_honest :
    let data : CopyData := ⟨[0x68, 0x69], [[]]⟩
    let r := acquireSelection [] .regular data (owning [309])
    r.1 = .ok (some (owned [⟨309, []⟩] data)) ∧ AssignedBy (numbered [[]]) r.2 ∧
      Assigns (numbered [[]]) (names data.mimeTypes) ∧ ¬ Honest (owned [⟨309, []⟩] data) := by
  refine ⟨by decide +kernel, assignedBy_of_all (by decide +kernel),
    ⟨by decide +kernel, by decide +kernel, by decide +kernel⟩, fun h => ?_⟩
  have hanswers := h.given 309 (by decide) (by decide)
  exact ((delivers_iff (by decide) 309).mp hanswers).1.2.2 (by decide)

/-! ## Complete lists -/

/-- A name for plain text. -/
def Synonym (m : Text) : Prop :=
  m = text "text/plain" ∨ startsWith m (text "text/plain;") = true ∨ m ∈ textNames

/-- A name that X keeps for itself. -/
def Reserved (m : Text) : Prop := m = text "TARGETS" ∨ m = text "TIMESTAMP"

/-- A type that is no synonym has a target of its own, plain text has `UTF8_STRING`, and a request for
either gets the payload. -/
structure Complete (atomOf : Text → Atom) (ctx : CopyContext) : Prop where
  own : ∀ m ∈ ctx.data.mimeTypes, ¬ Synonym m → ¬ Reserved m →
    atomOf m ∈ ctx.targets.map Target.atom ∧ Delivers ctx (atomOf m)
  text : (∃ m ∈ ctx.data.mimeTypes, Synonym m) →
    ctx.x.atoms.utf8String ∈ ctx.targets.map Target.atom ∧ Delivers ctx ctx.x.atoms.utf8String

structure CompleteData (data : CopyData) : Prop where
  types : ∀ m ∈ data.mimeTypes, Synonym m ∨ Reserved m ∨
    isTextual m = false ∧ m ≠ [] ∧ m.length < 2 ^ 16
  payload : data.bytes.length < 2 ^ 32 ∨ ∀ m ∈ data.mimeTypes, Reserved m

section

variable {sel : Selection} {data : CopyData} {ctx : CopyContext}

theorem complete_iff (hctx : Acquired atomOf sel data ctx)
    (h : Assigns atomOf (names data.mimeTypes)) : Complete atomOf ctx ↔
      (∀ m ∈ data.mimeTypes, ¬ Synonym m → ¬ Reserved m → Offered data.mimeTypes m ∧
        Given data.mimeTypes m ∧ data.bytes.length < 2 ^ 32) ∧
      ((∃ m ∈ data.mimeTypes, Synonym m) → Offered data.mimeTypes (text "UTF8_STRING") ∧
        Given data.mimeTypes (text "UTF8_STRING") ∧ data.bytes.length < 2 ^ 32) := by
  have hname : ∀ {n}, n ∈ names data.mimeTypes →
      (atomOf n ∈ ctx.targets.map Target.atom ∧ Delivers ctx (atomOf n) ↔
        Offered data.mimeTypes n ∧ Given data.mimeTypes n ∧ data.bytes.length < 2 ^ 32) := by
    intro n hn
    rw [delivers_name hctx h hn, hctx.targets, mem_advertised h]
    refine and_congr_left fun _ => ⟨?_, fun ho => ⟨n, ho, rfl⟩⟩
    rintro ⟨n', ho, heq⟩
    rwa [h.injective n hn n' ho.sub heq]
  have hutf8 : ctx.x.atoms.utf8String = atomOf (text "UTF8_STRING") := by rw [hctx.atoms]; rfl
  rw [← hname (protocolNames_sub (by decide)), ← hutf8]
  constructor
  · intro hcomplete
    have hown := hcomplete.own
    have htext := hcomplete.text
    rw [hctx.data] at hown htext
    exact ⟨fun m hm hs hr => (hname (mimes_sub hm)).mp (hown m hm hs hr), htext⟩
  · rintro ⟨hown, htext⟩
    refine ⟨?_, ?_⟩ <;> rw [hctx.data]
    · exact fun m hm hs hr => (hname (mimes_sub hm)).mpr (hown m hm hs hr)
    · exact htext

theorem textual_of_prefix (h : text "text/" <+: m) : isTextual m = true := by
  have hstarts : startsWith m (text "text/") = true := List.isPrefixOf_iff_prefix.mpr h
  simp [isTextual, hstarts]

theorem Synonym.textual (h : Synonym m) : isTextual m = true := by
  rcases h with rfl | hstarts | hmem
  · decide
  · exact textual_of_prefix (.trans (by decide) (List.isPrefixOf_iff_prefix.mp hstarts))
  · rcases List.mem_cons.mp hmem with rfl | hmem
    · decide
    rcases List.mem_cons.mp hmem with rfl | hmem
    · decide
    · rw [List.mem_singleton.mp hmem]
      decide

/-- A name that is textual but no synonym of plain text starts with `text/`, and so does every type
that is cut to it. -/
theorem textual_intern (h : isTextual (internName m) = true) (hsynonym : ¬ Synonym (internName m)) :
    isTextual m = true := by
  have hstarts : startsWith (internName m) (text "text/") = true := by
    by_contra hno
    simp only [isTextual, Bool.or_eq_true, decide_eq_true_eq, hno, false_or] at h
    apply hsynonym
    rcases h with (h | h) | h <;> rw [h] <;> exact .inr (.inr (by decide))
  exact textual_of_prefix ((List.isPrefixOf_iff_prefix.mp hstarts).trans (List.take_prefix _ m))

theorem completeData_iff :
    ((∀ m ∈ data.mimeTypes, ¬ Synonym m → ¬ Reserved m → Offered data.mimeTypes m ∧
        Given data.mimeTypes m ∧ data.bytes.length < 2 ^ 32) ∧
      ((∃ m ∈ data.mimeTypes, Synonym m) → Offered data.mimeTypes (text "UTF8_STRING") ∧
        Given data.mimeTypes (text "UTF8_STRING") ∧ data.bytes.length < 2 ^ 32)) ↔
      CompleteData data := by
  constructor
  · rintro ⟨hown, htext⟩
    have hmade : ∀ m ∈ data.mimeTypes, ¬ Synonym m → ¬ Reserved m →
        ∃ m' ∈ named data.mimeTypes, internName m' = m := by
      intro m hm hsynonym hreserved
      rcases (hown m hm hsynonym hreserved).1 with rfl | hmade | ⟨rfl, -⟩
      · exact absurd (.inl rfl) hreserved
      · exact hmade
      · exact absurd (.inr (.inr (by decide))) hsynonym
    refine ⟨fun m hm => ?_, ?_⟩
    · by_cases hsynonym : Synonym m
      · exact .inl hsynonym
      by_cases hreserved : Reserved m
      · exact .inr (.inl hreserved)
      obtain ⟨m', hm', rfl⟩ := hmade m hm hsynonym hreserved
      refine .inr (.inr ⟨?_, fun hnil => ?_, internName_length m'⟩)
      · by_contra htextual
        rw [Bool.not_eq_false] at htextual
        cases (textual_intern htextual hsynonym).symm.trans (mem_named.mp hm').2
      · -- the type that the empty name was first made of has a target of its own
        have hgiven := (hown _ hm hsynonym hreserved).2.1.2.2
        rw [hnil, if_neg (by decide)] at hgiven
        obtain ⟨m₁, hfind, hne⟩ := hgiven
        have hname : internName m₁ = [] := by simpa using List.find?_some hfind
        obtain ⟨hm₁, hplain⟩ := mem_named.mp (List.mem_of_find?_eq_some hfind)
        have hsynonym₁ : ¬ Synonym m₁ := fun hs => by cases hs.textual.symm.trans hplain
        have hreserved₁ : ¬ Reserved m₁ := by
          rintro (rfl | rfl) <;> revert hname <;> decide
        obtain ⟨m₂, -, rfl⟩ := hmade m₁ hm₁ hsynonym₁ hreserved₁
        rw [internName_eq (internName_length m₂)] at hname
        exact hne hname
    · by_contra hno
      rw [not_or] at hno
      obtain ⟨hlen, hno⟩ := hno
      apply hno
      intro m hm
      by_contra hreserved
      by_cases hsynonym : Synonym m
      · exact hlen (htext ⟨m, hm, hsynonym⟩).2.2
      · exact hlen (hown m hm hsynonym hreserved).2.2
  · intro h
    have hlen : ∀ m ∈ data.mimeTypes, ¬ Reserved m → data.bytes.length < 2 ^ 32 :=
      fun m hm hreserved => h.payload.resolve_right fun hall => hreserved (hall m hm)
    refine ⟨fun m hm hsynonym hreserved => ?_, ?_⟩
    · obtain ⟨hplain, hne, hshort⟩ := ((h.types m hm).resolve_left hsynonym).resolve_left hreserved
      have hname := internName_eq hshort
      have hmem := mem_named.mpr ⟨hm, hplain⟩
      refine ⟨.inr (.inl ⟨m, hmem, hname⟩), ⟨fun heq => hreserved (.inl heq),
        fun heq => hreserved (.inr heq), ?_⟩, hlen m hm hreserved⟩
      rw [if_neg fun hin => hsynonym (.inr (.inr hin))]
      obtain ⟨m', hfind, hfirst⟩ := first_named hmem
      rw [hname] at hfind hfirst
      refine ⟨m', hfind, ?_⟩
      rintro rfl
      exact hne hfirst.symm
    · rintro ⟨m, hm, hsynonym⟩
      have hany : data.mimeTypes.any isTextual = true :=
        List.any_eq_true.mpr ⟨m, hm, hsynonym.textual⟩
      have hreserved : ¬ Reserved m := by
        rintro (rfl | rfl) <;> exact absurd hsynonym.textual (by decide)
      exact ⟨.inr (.inr ⟨rfl, hany⟩), ⟨by decide, by decide, by rw [if_pos (by decide)]; exact hany⟩,
        hlen m hm hreserved⟩

variable {display : Text} {p q : Process}

/-- A selection that is acquired from a server is advertised completely exactly for these lists. -/
theorem advertised_complete_iff
    (h : acquireSelection display sel data p = (.ok (some ctx), q)) (hassigned : AssignedBy atomOf q)
    (hatoms : Assigns atomOf (names data.mimeTypes)) : Complete atomOf ctx ↔ CompleteData data :=
  (complete_iff (acquireSelection_acquired h hassigned) hatoms).trans completeData_iff

end

theorem advertised_complete_picture :
    Complete (numbered [text "image/png"]) (owned pictureTargets picture) := by
  apply (advertised_complete_iff acquireSelection_picture assignedBy_picture assigns_picture).mpr
  refine ⟨fun m hm => ?_, .inl (by decide)⟩
  rcases List.mem_cons.mp hm with rfl | hm
  · exact .inr (.inr ⟨by decide, by decide, by decide⟩)
  · exact .inl (.inl (List.mem_singleton.mp hm))

/-- HTML has no target of its own. -/
theorem html_not_complete :
    let data : CopyData := ⟨[0x68, 0x69], [text "text/html"]⟩
    let r := acquireSelection [] .regular data (owning [])
    r.1 = .ok (some (owned textTargets data)) ∧ AssignedBy (numbered [text "text/html"]) r.2 ∧
      Assigns (numbered [text "text/html"]) (names data.mimeTypes) ∧
      ¬ Complete (numbered [text "text/html"]) (owned textTargets data) := by
  refine ⟨by decide +kernel, assignedBy_of_all (by decide +kernel),
    ⟨by decide +kernel, by decide +kernel, by decide +kernel⟩, fun h => ?_⟩
  have hown := h.own (text "text/html") List.mem_cons_self
    (by rintro (h | h | h) <;> revert h <;> decide) (by rintro (h | h) <;> revert h <;> decide)
  exact absurd hown.1 (by decide +kernel)

end X11

end WlClip
