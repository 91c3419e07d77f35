import ScriptTags.Command.Run
import ScriptTags.Proofs.Command.Spelling
import Mathlib.Data.List.Basic

namespace ScriptTags.Command

structure Effect where
  exit : Nat
  tree : FileTree
  stdout : Sink
deriving DecidableEq, Repr

def Completion.effect (c : Completion) : Effect :=
  { exit := c.exit, tree := c.tree, stdout := c.stdout }

def exitOf {ε α : Type} : Except ε α → Nat
  | .ok _ => 0
  | .error _ => 1

namespace Options

def effect (o : Options) (t : FileTree) (stdout : Sink) : Effect :=
  if o.listKinds then
    let (result, stdout) := Kind.printAll o.config.kinds stdout
    { exit := exitOf result, tree := t, stdout }
  else
    let (result, s) := Run.generate o.config [Byte.dot] { tree := t, stdout }
    { exit := exitOf result, tree := s.tree, stdout := s.stdout }

def withVerbose (o : Options) (b : Bool) : Options :=
  { o with verbose := b }

end Options

def clusterWords (letters : Bytes) : List Bytes :=
  if letters = [] then [] else [Byte.dash :: letters]

/-- One command line is another without the switch that asks for the full log, be it a word of its
own or a letter behind other switches. -/
inductive LeavesOutVerbose : List Bytes → List Bytes → Prop
  | word {before after : List Bytes} :
      [Byte.dash, Byte.dash] ∉ before →
      LeavesOutVerbose (before ++ Bytes.ofString "--verbose" :: after) (before ++ after)
  | letter {before after : List Bytes} {left right : Bytes} {v : UInt8} :
      [Byte.dash, Byte.dash] ∉ before → Flag.ofLetter? v = some (.switch .verbose) →
      (∀ b ∈ left, ∃ s, Flag.ofLetter? b = some (.switch s)) →
      LeavesOutVerbose (before ++ (clusterWords (left ++ v :: right) ++ after))
        (before ++ (clusterWords (left ++ right) ++ after))

variable {o o' : Options} {item : Item} {items more : List Item} {place next last : Place}
  {arguments loud shorter words : List Bytes} {letters left right word : Bytes} {v : UInt8}
  {t : FileTree} {stdout : Sink}

theorem listKinds_effect (o : Options) (t : FileTree) (stdout : Sink)
    (hkinds : o.listKinds = true) : (listKinds o t stdout).effect = o.effect t stdout := by
  rw [listKinds, Options.effect, if_pos hkinds]
  rcases Kind.printAll o.config.kinds stdout with ⟨_ | _, stdout'⟩ <;> rfl

theorem generate_effect (o : Options) (filter : Filter) (t : FileTree) (stdout : Sink)
    (hkinds : o.listKinds ≠ true) : (generate o filter t stdout).effect = o.effect t stdout := by
  rw [generate, Options.effect, if_neg hkinds]
  rcases Run.generate o.config [Byte.dot] { tree := t, stdout } with ⟨e | outcome, s⟩
  · rfl
  · -- A skipped run is recorded, which changes the log of the session alone.
    by_cases hskipped : outcome = .skipped
    · rw [hskipped]
      rfl
    · simp only [hskipped]
      rfl

theorem run_effect (h : parse arguments = .ok o) (environment : Option String) :
    (run arguments environment t stdout).effect = o.effect t stdout := by
  rw [run, h]
  by_cases hkinds : o.listKinds = true
  · simp only [hkinds, if_true]
    exact listKinds_effect o t stdout hkinds
  · simp only [hkinds]
    exact generate_effect o _ t stdout hkinds

theorem run_listKinds (h : parse arguments = .ok o) (hkinds : o.listKinds = true)
    (environment : Option String) :
    run arguments environment t stdout = listKinds o t stdout := by
  rw [run, h]
  exact if_pos hkinds

theorem listKinds_tree (o : Options) (t t' : FileTree) (stdout : Sink) :
    listKinds o t' stdout = { listKinds o t stdout with tree := t' } := by
  rw [listKinds, listKinds]
  rcases Kind.printAll o.config.kinds stdout with ⟨_ | _, stdout'⟩ <;> rfl

namespace Options

theorem effect_withVerbose (o : Options) (b : Bool) (t : FileTree) (stdout : Sink) :
    (o.withVerbose b).effect t stdout = o.effect t stdout := rfl

theorem take?_withVerbose (o : Options) (b : Bool) (h : item ≠ .switch .verbose) :
    (o.withVerbose b).take? item = (o.take? item).map (·.withVerbose b) := by
  cases item with
  | switch s =>
      cases s with
      | verbose => exact absurd rfl h
      | recursive | includeVariables | listKinds =>
          rw [take?, take?, apply_ite (Option.map _)]
          rfl
  | destination value =>
      rw [take?, take?, apply_ite (Option.map _), Option.map_map]
      rfl
  | file path =>
      rw [take?, take?, apply_ite (Option.map _)]
      rfl

theorem takeAll?_withVerbose (o : Options) (b : Bool) (h : .switch .verbose ∉ items) :
    (o.withVerbose b).takeAll? items = (o.takeAll? items).map (·.withVerbose b) := by
  induction items generalizing o with
  | nil => rfl
  | cons item items ih =>
      rw [List.mem_cons, not_or] at h
      rw [takeAll?_cons, takeAll?_cons, take?_withVerbose o b fun heq => h.1 heq.symm,
        Option.bind_map, Option.map_bind]
      exact congrArg _ (funext fun o' => ih o' h.2)

theorem verbose_eq_of_takeAll? (h : o.takeAll? items = some o')
    (hitems : .switch .verbose ∉ items) : o'.verbose = o.verbose := by
  have hsame := takeAll?_withVerbose o o.verbose hitems
  rw [h] at hsame
  have hself : o' = o'.withVerbose o.verbose := Option.some.inj (h.symm.trans hsame)
  rw [hself]
  rfl

theorem takeAll?_append_switch_iff {s : Switch} :
    o.takeAll? (items ++ .switch s :: more) = some o' ↔
      ∃ before, o.takeAll? items = some before ∧ ¬before.has s = true ∧
        (before.turnOn s).takeAll? more = some o' := by
  simp only [takeAll?_append, takeAll?_cons, Option.bind_eq_some_iff, take?_switch_eq_some_iff]
  constructor
  · rintro ⟨before, hitems, _, ⟨hfree, rfl⟩, hmore⟩
    exact ⟨before, hitems, hfree, hmore⟩
  · rintro ⟨before, hitems, hfree, hmore⟩
    exact ⟨before, hitems, _, ⟨hfree, rfl⟩, hmore⟩

theorem verbose_notMem_of_takeAll? (h : o.takeAll? items = some o') (hverbose : o.verbose = true) :
    .switch .verbose ∉ items := by
  intro hmem
  obtain ⟨front, rest, rfl, hfront⟩ := List.eq_append_cons_of_mem hmem
  obtain ⟨before, htaken, hfree, -⟩ := takeAll?_append_switch_iff.mp h
  exact hfree ((verbose_eq_of_takeAll? htaken hfront).trans hverbose)

theorem verbose_of_mem (h : o.takeAll? items = some o') (hmem : .switch .verbose ∈ items) :
    o'.verbose = true := by
  obtain ⟨front, rest, rfl⟩ := List.append_of_mem hmem
  obtain ⟨before, -, -, hrest⟩ := takeAll?_append_switch_iff.mp h
  exact verbose_eq_of_takeAll? hrest (verbose_notMem_of_takeAll? hrest rfl)

theorem takeAll?_leave_out (h : o.takeAll? (items ++ .switch .verbose :: more) = some o') :
    o.takeAll? (items ++ more) = some (o'.withVerbose false) := by
  obtain ⟨before, hitems, hfree, hmore⟩ := takeAll?_append_switch_iff.mp h
  have hoff : before = (before.turnOn .verbose).withVerbose false := by
    have hverbose : before.verbose = false := Bool.not_eq_true _ ▸ hfree
    rw [withVerbose, turnOn, ← hverbose]
  -- what is taken behind the switch does not depend on whether it is on
  have hsame :=
    takeAll?_withVerbose (before.turnOn .verbose) false (verbose_notMem_of_takeAll? hmore rfl)
  rw [← hoff, hmore] at hsame
  rw [takeAll?_append, hitems]
  exact hsame

end Options

theorem ofArgument_verbose : Word.ofArgument (Bytes.ofString "--verbose") =
    .long (Bytes.ofString Switch.verbose.long) none := by decide

theorem Letters.spells (h : Letters letters items next) :
    Spells .word (clusterWords letters) items next := by
  cases letters with
  | nil =>
      cases h
      exact .nil .word
  | cons b left => exact (Step.cluster (h.ofArgument (List.cons_ne_nil b left)) h).spells

theorem Letters.leave_out (h : Letters (left ++ v :: right) items next)
    (hv : Flag.ofLetter? v = some (.switch .verbose))
    (hleft : ∀ b ∈ left, ∃ s, Flag.ofLetter? b = some (.switch s)) :
    ∃ front rest, items = front ++ .switch .verbose :: rest ∧
      Letters (left ++ right) (front ++ rest) next := by
  induction left generalizing items with
  | nil =>
      rw [List.nil_append] at h
      cases h with
      | switch hletter hright =>
          cases hv.symm.trans hletter
          exact ⟨[], _, rfl, hright⟩
      | asking hletter | giving hletter => cases hv.symm.trans hletter
  | cons b left ih =>
      obtain ⟨s, hs⟩ := hleft b List.mem_cons_self
      rw [List.cons_append] at h
      generalize htail : left ++ v :: right = tail at h
      cases h with
      | switch hletter hrest =>
          rw [← htail] at hrest
          obtain ⟨front, rest, rfl, hshorter⟩ :=
            ih hrest fun b hb => hleft b (List.mem_cons_of_mem _ hb)
          exact ⟨_ :: front, rest, rfl, .switch hletter hshorter⟩
      | asking hletter | giving hletter => cases hs.symm.trans hletter

theorem LeavesOutVerbose.spells (h : LeavesOutVerbose loud shorter)
    (hloud : Spells .word loud items last) :
    ∃ front rest, items = front ++ .switch .verbose :: rest ∧
      Spells .word shorter (front ++ rest) last := by
  cases h with
  | @word before after hbefore =>
      obtain ⟨front, place, _, hfront, _ | ⟨hstep, hrest⟩, rfl⟩ := spells_append_iff.mp hloud
      have hplace := hfront.last_ne_files nofun hbefore
      obtain ⟨rfl, rfl, rfl⟩ :=
        hstep.of_switch hplace ofArgument_verbose (ofLong?_eq_switch_iff.mpr rfl)
      exact ⟨front, _, rfl, spells_append_iff.mpr ⟨front, .word, _, hfront, hrest, rfl⟩⟩
  | @letter before after left right v hbefore hv hleft =>
      obtain ⟨front, place, _, hfront, hspells, rfl⟩ := spells_append_iff.mp hloud
      have hplace := hfront.last_ne_files nofun hbefore
      have hkind : Word.ofArgument (Byte.dash :: (left ++ v :: right)) =
          .cluster (left ++ v :: right) := by
        cases left with
        | nil => exact ofArgument_cluster hv right
        | cons b left =>
            obtain ⟨s, hs⟩ := hleft b List.mem_cons_self
            exact ofArgument_cluster hs _
      rw [clusterWords, if_neg (by simp)] at hspells
      cases hspells with
      | @cons _ next _ _ _ _ more hstep hrest =>
          obtain ⟨rfl, hletters⟩ := hstep.of_cluster hplace hkind
          obtain ⟨inner, outer, rfl, hshorter⟩ := hletters.leave_out hv hleft
          have hspelled := spells_append_iff.mpr ⟨_, next, more, hshorter.spells, hrest, rfl⟩
          refine ⟨front ++ inner, outer ++ more, ?_, spells_append_iff.mpr ?_⟩
          · simp only [List.append_assoc, List.cons_append]
          · refine ⟨front, .word, _, hfront, hspelled, ?_⟩
            simp only [List.append_assoc]

theorem LeavesOutVerbose.parse_eq_ok (h : LeavesOutVerbose loud shorter)
    (hparse : parse loud = .ok o) : parse shorter = .ok (o.withVerbose false) := by
  obtain ⟨_, last, hloud, hlast, htakes⟩ := parse_eq_ok_iff.mp hparse
  obtain ⟨front, rest, rfl, hshorter⟩ := h.spells hloud
  exact parse_eq_ok_iff.mpr ⟨_, last, hshorter, hlast, Options.takeAll?_leave_out htakes⟩

theorem LeavesOutVerbose.cons (h : LeavesOutVerbose loud shorter)
    (hword : word ≠ [Byte.dash, Byte.dash]) :
    LeavesOutVerbose (word :: loud) (word :: shorter) := by
  cases h with
  | word hbefore => exact .word (List.not_mem_cons_of_ne_of_not_mem hword.symm hbefore)
  | letter hbefore hv hleft =>
      exact .letter (List.not_mem_cons_of_ne_of_not_mem hword.symm hbefore) hv hleft

theorem Letters.exists_verbose (h : Letters letters items next)
    (hmem : .switch .verbose ∈ items) :
    ∃ left v right, letters = left ++ v :: right ∧ Flag.ofLetter? v = some (.switch .verbose) ∧
      ∀ b ∈ left, ∃ s, Flag.ofLetter? b = some (.switch s) := by
  induction h with
  | nil | asking => cases hmem
  | giving => simp at hmem
  | @switch b letters s items next hletter _ ih =>
      by_cases hs : s = .verbose
      · subst hs
        exact ⟨[], b, letters, rfl, hletter, nofun⟩
      · have hrest : .switch .verbose ∈ items := by
          simpa [Ne.symm hs] using hmem
        obtain ⟨left, v, right, rfl, hv, hleft⟩ := ih hrest
        exact ⟨b :: left, v, right, rfl, hv, List.forall_mem_cons.mpr ⟨⟨s, hletter⟩, hleft⟩⟩

theorem takeWhile_of_afterEquals? {name : Bytes} (h : afterEquals? name = none) :
    name.takeWhile (· != Byte.equals) = name := by
  have hcut : name.takeWhile (· != Byte.equals) ++ name.dropWhile (· != Byte.equals) = name :=
    List.takeWhile_append_dropWhile
  rw [afterEquals?] at h
  split at h
  next hdrop => rwa [hdrop, List.append_nil] at hcut
  next => cases h

theorem Step.exists_leavesOutVerbose (h : Step place word items next)
    (hmem : .switch .verbose ∈ items) (words : List Bytes) :
    ∃ shorter, LeavesOutVerbose (word :: words) shorter := by
  cases h with
  | endOfOptions | file | value | rest | asking | giving => simp at hmem
  | switch hkind hname =>
      obtain rfl := Item.switch.inj (List.mem_singleton.mp hmem)
      obtain ⟨name, -, rfl, rfl, hvalue⟩ := ofArgument_eq_long_iff.mp hkind
      rw [ofLong?_eq_switch_iff, takeWhile_of_afterEquals? hvalue.symm] at hname
      subst hname
      have hshorter : LeavesOutVerbose ([] ++ Bytes.ofString "--verbose" :: words) _ := .word nofun
      exact ⟨_, hshorter⟩
  | cluster hkind hletters =>
      obtain ⟨left, v, right, rfl, hv, hleft⟩ := hletters.exists_verbose hmem
      obtain ⟨b, _, -, hcluster, rfl⟩ := ofArgument_eq_cluster_iff.mp hkind
      have hshorter : LeavesOutVerbose ([] ++ (clusterWords (left ++ v :: right) ++ words)) _ :=
        .letter nofun hv hleft
      rw [hcluster] at hshorter
      exact ⟨_, hshorter⟩

theorem Spells.exists_leavesOutVerbose (h : Spells place words items last) (hplace : place ≠ .files)
    (hmem : .switch .verbose ∈ items) : ∃ shorter, LeavesOutVerbose words shorter := by
  induction h with
  | nil => cases hmem
  | @cons place next last word words items more hstep hrest ih =>
      rcases List.mem_append.mp hmem with hitems | hmore
      · exact hstep.exists_leavesOutVerbose hitems words
      · have hnext : next ≠ .files := by
          rintro rfl
          obtain ⟨rfl, -⟩ := spells_files_iff.mp hrest
          simp at hmore
        obtain ⟨shorter, hshorter⟩ := ih hnext hmore
        refine ⟨_, hshorter.cons ?_⟩
        rintro rfl
        exact hnext (hstep.of_endOfOptions hplace rfl).2.2

theorem parse_verbose_cons (h : parse arguments = .ok o) (hverbose : o.verbose = false) :
    parse (Bytes.ofString "--verbose" :: arguments) = .ok (o.withVerbose true) := by
  obtain ⟨items, last, hspells, hlast, htakes⟩ := parse_eq_ok_iff.mp h
  have hstep := Step.switch ofArgument_verbose (ofLong?_eq_switch_iff.mpr rfl)
  refine parse_eq_ok_iff.mpr ⟨_, last, .cons hstep hspells, hlast, ?_⟩
  have hitems : .switch .verbose ∉ items := fun hmem =>
    Bool.false_ne_true (hverbose.symm.trans (Options.verbose_of_mem htakes hmem))
  have hon := Options.takeAll?_withVerbose {} true hitems
  rw [htakes] at hon
  exact hon

theorem exists_leavesOutVerbose_of_parse (h : parse arguments = .ok o)
    (hverbose : o.verbose = true) : ∃ shorter, LeavesOutVerbose arguments shorter := by
  obtain ⟨items, last, hspells, -, htakes⟩ := parse_eq_ok_iff.mp h
  refine hspells.exists_leavesOutVerbose nofun ?_
  by_contra hitems
  exact Bool.false_ne_true ((Options.verbose_eq_of_takeAll? htakes hitems).symm.trans hverbose)

theorem run_acts_as_library (h : parse arguments = .ok o) (t : FileTree) (stdout : Sink) :
    (∀ environment, (run arguments environment t stdout).effect = o.effect t stdout) ∧
      (∀ shorter, LeavesOutVerbose arguments shorter →
        parse shorter = .ok (o.withVerbose false) ∧
          ∀ environment, (run shorter environment t stdout).effect = o.effect t stdout) ∧
      (o.verbose = true → ∃ shorter, LeavesOutVerbose arguments shorter) ∧
      (o.verbose = false → ∃ longer, LeavesOutVerbose longer arguments ∧
        parse longer = .ok (o.withVerbose true) ∧
          ∀ environment, (run longer environment t stdout).effect = o.effect t stdout) ∧
      (o.listKinds = true → ∀ environment t',
        run arguments environment t' stdout =
          { run arguments environment t stdout with tree := t' }) := by
  refine ⟨run_effect h, ?_, exists_leavesOutVerbose_of_parse h, ?_, ?_⟩
  · intro shorter hshorter
    have hparse := hshorter.parse_eq_ok h
    rw [← o.effect_withVerbose false]
    exact ⟨hparse, run_effect hparse⟩
  · intro hverbose
    have hparse := parse_verbose_cons h hverbose
    have hlonger : LeavesOutVerbose ([] ++ Bytes.ofString "--verbose" :: arguments) _ := .word nofun
    rw [← o.effect_withVerbose true]
    exact ⟨_, hlonger, hparse, run_effect hparse⟩
  · intro hkinds environment t'
    rw [run_listKinds h hkinds, run_listKinds h hkinds]
    exact listKinds_tree o t t' stdout

theorem effect_without_verbose_letter :
    let loud := [Bytes.ofString "-Rv", Bytes.ofString "--file=-"]
    let shorter := [Bytes.ofString "-R", Bytes.ofString "--file=-"]
    let o : Options := { recursive := true, verbose := true, destination := some "-" }
    let t : FileTree := { nodes := [([⟨[97, 46, 97, 104, 107], by decide⟩], .file [97, 58, 10])] }
    parse loud = .ok o ∧ LeavesOutVerbose loud shorter ∧ parse shorter = .ok (o.withVerbose false) ∧
      (run loud (some "debug") t {}).effect = (run shorter none t {}).effect := by
  intro loud shorter o t
  have hparse : parse loud = .ok o := by decide +kernel
  have hletter : ∀ b ∈ ([82] : Bytes), ∃ s, Flag.ofLetter? b = some (.switch s) := by
    intro b hb
    rw [List.mem_singleton.mp hb]
    exact ⟨.recursive, by decide⟩
  have hverbose : Flag.ofLetter? 118 = some (.switch .verbose) := by decide
  have hshorter : LeavesOutVerbose
      ([] ++ (clusterWords ([82] ++ [118]) ++ [Bytes.ofString "--file=-"]))
      ([] ++ (clusterWords ([82] ++ []) ++ [Bytes.ofString "--file=-"])) :=
    .letter nofun hverbose hletter
  obtain ⟨hacts, hleaves, -⟩ := run_acts_as_library hparse t {}
  obtain ⟨hparse', hacts'⟩ := hleaves shorter hshorter
  exact ⟨hparse, hshorter, hparse', (hacts _).trans (hacts' _).symm⟩

end ScriptTags.Command
