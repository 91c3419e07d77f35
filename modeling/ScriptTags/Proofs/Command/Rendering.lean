import ScriptTags.Proofs.Command.Spelling
import ScriptTags.Proofs.Text.Utf8
import Mathlib.Data.List.Count

namespace ScriptTags.Command

inductive Lettered : UInt8 → Switch → Prop
  | recursive : Lettered 82 .recursive
  | verbose : Lettered 118 .verbose

inductive Group : List Bytes → List Item → Prop
  | file {path : Bytes} :
      path = [Byte.dash] ∨ path.head? ≠ some Byte.dash → Group [path] [.file path]
  | switch (s : Switch) : Group [Bytes.ofString ("--" ++ s.long)] [.switch s]
  | letters {letters : Bytes} {switches : List Switch} :
      List.Forall₂ Lettered letters switches → letters ≠ [] →
      Group [Byte.dash :: letters] (switches.map .switch)
  | attached (destination : String) :
      Group [Bytes.ofString "--file=" ++ Bytes.ofString destination]
        [.destination (Bytes.ofString destination)]
  | long {destination : String} :
      destination = "-" ∨ destination.toList.head? ≠ some '-' →
      Group [Bytes.ofString "--file", Bytes.ofString destination]
        [.destination (Bytes.ofString destination)]
  | short {letters : Bytes} {switches : List Switch} {destination : String} :
      List.Forall₂ Lettered letters switches →
      destination = "-" ∨ destination.toList.head? ≠ some '-' →
      Group [Byte.dash :: (letters ++ Bytes.ofString "f"), Bytes.ofString destination]
        (switches.map .switch ++ [.destination (Bytes.ofString destination)])

inductive Renders : List Bytes → List Item → Prop
  | nil : Renders [] []
  | group {words rest : List Bytes} {items more : List Item} :
      Group words items → Renders rest more → Renders (words ++ rest) (items ++ more)
  | behind (files : List Bytes) : Renders (Bytes.ofString "--" :: files) (files.map .file)

def Item.file? : Item → Option Bytes
  | .file path => some path
  | _ => none

def Item.destination? : Item → Option Bytes
  | .destination value => some value
  | _ => none

namespace Options

/-- Items make one set of options out of another: each file with a name, in order, and each switch
and the destination at most once. -/
structure Adds (o : Options) (items : List Item) (o' : Options) : Prop where
  named : [] ∉ items.filterMap Item.file?
  files : o'.files = o.files ++ items.filterMap Item.file?
  switches : ∀ s, (o'.has s).toNat = (o.has s).toNat + items.count (.switch s)
  destination : o'.destination.toList.map Bytes.ofString =
    o.destination.toList.map Bytes.ofString ++ items.filterMap Item.destination?

def RenderedBy (o : Options) (arguments : List Bytes) : Prop :=
  ∃ items, Renders arguments items ∧ ({} : Options).Adds items o

def words (o : Options) : List Bytes :=
  (Switch.all.filter o.has).map (fun s => Bytes.ofString ("--" ++ s.long)) ++
    (o.destination.toList.map (fun d => Bytes.ofString "--file=" ++ Bytes.ofString d) ++
      Bytes.ofString "--" :: o.files)

def items (o : Options) : List Item :=
  (Switch.all.filter o.has).map .switch ++
    (o.destination.toList.map (fun d => .destination (Bytes.ofString d)) ++ o.files.map .file)

end Options

variable {o o' : Options} {items more : List Item} {word letters left : Bytes} {words : List Bytes}
  {switches : List Switch} {place next : Place} {destination : String}

theorem ofArgument_eq_plain_iff :
    Word.ofArgument word = .plain ↔ word = [Byte.dash] ∨ word.head? ≠ some Byte.dash := by
  rcases word with _ | ⟨b, _ | ⟨c, s⟩⟩ <;> grind [Word.ofArgument]

theorem ofArgument_switch (s : Switch) :
    Word.ofArgument (Bytes.ofString ("--" ++ s.long)) = .long (Bytes.ofString s.long) none := by
  cases s <;> decide

theorem ofArgument_file :
    Word.ofArgument (Bytes.ofString "--file") = .long (Bytes.ofString "file") none := by decide

theorem ofArgument_attached (value : Bytes) :
    Word.ofArgument (Bytes.ofString "--file=" ++ value) =
      .long (Bytes.ofString "file") (some value) := by
  have hword : Bytes.ofString "--file=" = Byte.dash :: Byte.dash :: Bytes.ofString "file=" := by
    decide
  have hname : Bytes.ofString "file=" = [102, 105, 108, 101, Byte.equals] := by decide
  have hfile : Bytes.ofString "file" = [102, 105, 108, 101] := by decide
  rw [hword, hname, hfile]
  rfl

theorem Lettered.ofLetter? {b : UInt8} {s : Switch} (h : Lettered b s) :
    Flag.ofLetter? b = some (.switch s) := by
  cases h <;> decide

theorem ofArgument_destination (h : destination = "-" ∨ destination.toList.head? ≠ some '-') :
    Word.ofArgument (Bytes.ofString destination) = .plain := by
  refine ofArgument_eq_plain_iff.mpr (h.imp ?_ fun hhead hdash => ?_)
  · rintro rfl
    decide
  · obtain ⟨r, hr⟩ := List.head?_eq_some_iff.mp hdash
    exact hhead (Utf8.head?_toList_of_ofString (by decide) hr)

theorem letters_append (h : List.Forall₂ Lettered letters switches)
    (hleft : Letters left items place) :
    Letters (letters ++ left) (switches.map .switch ++ items) place := by
  induction h with
  | nil => exact hleft
  | cons hletter _ ih => exact .switch hletter.ofLetter? ih

theorem step_of_lettered (h : List.Forall₂ Lettered letters switches) (hword : letters ++ left ≠ [])
    (hleft : Letters left items place) :
    Step .word (Byte.dash :: (letters ++ left)) (switches.map .switch ++ items) place := by
  have hletters := letters_append h hleft
  exact .cluster (hletters.ofArgument hword) hletters

theorem Group.spells (h : Group words items) : Spells .word words items .word := by
  cases h with
  | file hpath => exact (Step.file (ofArgument_eq_plain_iff.mpr hpath)).spells
  | switch s => exact (Step.switch (ofArgument_switch s) (ofLong?_eq_switch_iff.mpr rfl)).spells
  | letters hlettered hletters =>
      have hstep := step_of_lettered hlettered (by simpa using hletters) Letters.nil
      rw [List.append_nil, List.append_nil] at hstep
      exact hstep.spells
  | attached destination => exact (Step.giving (ofArgument_attached _) (by decide)).spells
  | long hdestination =>
      have hasks : Step .word (Bytes.ofString "--file") [] .value :=
        .asking ofArgument_file (by decide)
      exact .cons hasks (Step.value (ofArgument_destination hdestination)).spells
  | @short letters switches destination hlettered hdestination =>
      have hasks : Letters (Bytes.ofString "f") [] .value := .asking (by decide)
      have hword : letters ++ Bytes.ofString "f" ≠ [] :=
        List.append_ne_nil_of_right_ne_nil _ (by decide)
      have hstep := step_of_lettered hlettered hword hasks
      rw [List.append_nil] at hstep
      exact .cons hstep (Step.value (ofArgument_destination hdestination)).spells

theorem Renders.spells (h : Renders words items) :
    ∃ last, Spells .word words items last ∧ last ≠ .value := by
  induction h with
  | nil => exact ⟨.word, .nil .word, nofun⟩
  | group hgroup _ ih =>
      obtain ⟨last, hrest, hlast⟩ := ih
      exact ⟨last, spells_append_iff.mpr ⟨_, .word, _, hgroup.spells, hrest, rfl⟩, hlast⟩
  | behind files =>
      have hends : Word.ofArgument (Bytes.ofString "--") = .endOfOptions := by decide
      exact ⟨.files, .cons (.endOfOptions hends) (spells_files_iff.mpr ⟨rfl, rfl⟩), nofun⟩

namespace Options

theorem has_turnOn (o : Options) (s r : Switch) :
    (o.turnOn s).has r = (decide (r = s) || o.has r) := by
  cases s <;> cases r <;> rfl

theorem files_turnOn (o : Options) (s : Switch) : (o.turnOn s).files = o.files := by
  cases s <;> rfl

theorem destination_turnOn (o : Options) (s : Switch) :
    (o.turnOn s).destination = o.destination := by
  cases s <;> rfl

theorem eq_of_has (hfiles : o.files = o'.files) (hhas : ∀ s, o.has s = o'.has s)
    (hdestination : o.destination = o'.destination) : o = o' := by
  have hrecursive := hhas .recursive
  have hvariables := hhas .includeVariables
  have hkinds := hhas .listKinds
  have hverbose := hhas .verbose
  cases o
  cases o'
  simp_all [has]

theorem toList_map_inj {d d' : Option String}
    (h : d.toList.map Bytes.ofString = d'.toList.map Bytes.ofString) : d = d' := by
  cases d <;> cases d' <;> simp_all
  exact Utf8.ofString_inj h

theorem Adds.eq_of_nil (h : o.Adds [] o') : o = o' := by
  refine eq_of_has (by simpa using h.files.symm) (fun s => ?_) (toList_map_inj ?_)
  · have hswitch := h.switches s
    rw [List.count_nil, Nat.add_zero] at hswitch
    cases ho : o.has s <;> cases ho' : o'.has s <;> simp_all
  · simpa using h.destination.symm

theorem Adds.of_switch {s : Switch} (h : o.Adds (.switch s :: items) o') :
    ¬o.has s = true ∧ (o.turnOn s).Adds items o' := by
  have hs := h.switches s
  rw [List.count_cons_self] at hs
  have hoff : o.has s = false := by
    cases hon : o.has s with
    | false => rfl
    | true =>
        have hle := Bool.toNat_le (o'.has s)
        rw [hon] at hs
        simp at hs
        omega
  refine ⟨by simp [hoff], h.named, ?_, fun r => ?_, ?_⟩
  · rw [files_turnOn]
    exact h.files
  · have hr := h.switches r
    rw [has_turnOn]
    by_cases hrs : r = s
    · subst hrs
      rw [hs, hoff]
      simp [Nat.add_comm]
    · rw [List.count_cons_of_ne (by simpa using Ne.symm hrs)] at hr
      simpa [hrs] using hr
  · rw [destination_turnOn]
    exact h.destination

theorem Adds.of_destination {value : Bytes} (h : o.Adds (.destination value :: items) o') :
    ∃ d, o.destination = none ∧ Bytes.ofString d = value ∧
      ({ o with destination := some d } : Options).Adds items o' := by
  have hdestination := h.destination
  simp only [List.filterMap_cons, Item.destination?] at hdestination
  cases hbefore : o.destination with
  | some d =>
      cases hafter : o'.destination <;> simp [hbefore, hafter] at hdestination
  | none =>
      cases hafter : o'.destination with
      | none => simp [hbefore, hafter] at hdestination
      | some d =>
          simp only [hbefore, hafter, Option.toList_some, Option.toList_none, List.map_cons,
            List.map_nil, List.nil_append, List.cons.injEq] at hdestination
          obtain ⟨hvalue, hrest⟩ := hdestination
          refine ⟨d, rfl, hvalue, h.named, h.files, h.switches, ?_⟩
          simp [hafter, ← hrest]

theorem Adds.of_file {path : Bytes} (h : o.Adds (.file path :: items) o') :
    path ≠ [] ∧ ({ o with files := o.files ++ [path] } : Options).Adds items o' := by
  have hnamed := h.named
  simp only [List.filterMap_cons, Item.file?, List.mem_cons, not_or] at hnamed
  refine ⟨fun hpath => hnamed.1 hpath.symm, hnamed.2, ?_, h.switches, h.destination⟩
  rw [h.files, List.append_assoc]
  rfl

theorem Adds.takeAll?_eq (h : o.Adds items o') : o.takeAll? items = some o' := by
  induction items generalizing o with
  | nil => rw [takeAll?_nil, h.eq_of_nil]
  | cons item items ih =>
      rw [takeAll?_cons]
      cases item with
      | switch s =>
          obtain ⟨hoff, hrest⟩ := h.of_switch
          rw [take?_switch_eq_some_iff.mpr ⟨hoff, rfl⟩]
          exact ih hrest
      | destination value =>
          obtain ⟨d, hnone, rfl, hrest⟩ := h.of_destination
          rw [take?, hnone, Utf8.decode?_ofString]
          exact ih hrest
      | file path =>
          obtain ⟨hpath, hrest⟩ := h.of_file
          have hnamed : path.isEmpty = false := by simpa using hpath
          rw [take?, hnamed]
          exact ih hrest

theorem renders_words (o : Options) : Renders o.words o.items := by
  have hdestination : Renders
      (o.destination.toList.map (fun d => Bytes.ofString "--file=" ++ Bytes.ofString d) ++
        Bytes.ofString "--" :: o.files)
      (o.destination.toList.map (fun d => .destination (Bytes.ofString d)) ++
        o.files.map .file) := by
    cases o.destination with
    | none => exact .behind o.files
    | some d => exact .group (.attached d) (.behind o.files)
  rw [words, items]
  induction Switch.all.filter o.has with
  | nil => exact hdestination
  | cons s switches ih =>
      have hgroup := Renders.group (.switch s) ih
      exact hgroup

theorem count_items (o : Options) (s : Switch) : o.items.count (.switch s) = (o.has s).toNat := by
  have hinjective : Function.Injective Item.switch := fun _ _ => Item.switch.inj
  have honce : Switch.all.count s = 1 := by cases s <;> rfl
  have hothers : Item.switch s ∉
      o.destination.toList.map (fun d => Item.destination (Bytes.ofString d)) ++
        o.files.map Item.file := by
    simp
  rw [items, List.count_append, List.count_eq_zero.mpr hothers,
    List.count_map_of_injective _ _ hinjective]
  cases hs : o.has s with
  | false =>
      rw [List.count_eq_zero.mpr (by simp [hs])]
      rfl
  | true =>
      rw [List.count_filter hs, honce]
      rfl

theorem adds_items (h : [] ∉ o.files) : ({} : Options).Adds o.items o := by
  have hfiles : o.items.filterMap Item.file? = o.files := by
    simp [items, List.filterMap_append, List.filterMap_map, Function.comp_def, Item.file?]
  refine ⟨hfiles ▸ h, ?_, fun s => ?_, ?_⟩
  · rw [hfiles]
    rfl
  · rw [count_items]
    cases s <;> simp [has]
  · simp [items, List.filterMap_append, List.filterMap_map, Function.comp_def, Item.destination?]

end Options

theorem rendered_options_parse_back (o : Options) :
    ([] ∉ o.files → o.RenderedBy o.words) ∧
      ∀ arguments, o.RenderedBy arguments →
        parse arguments = .ok o ∧
          ∀ d, o.destination = some d →
            o.config =
              { files := o.files
                recursive := o.recursive
                includeVariables := o.includeVariables
                destination := if d = "-" then .stdout else .file (Bytes.ofString d) } := by
  refine ⟨fun h => ⟨o.items, o.renders_words, Options.adds_items h⟩, ?_⟩
  rintro arguments ⟨items, hrenders, hadds⟩
  obtain ⟨last, hspells, hlast⟩ := hrenders.spells
  refine ⟨parse_eq_ok_iff.mpr ⟨items, last, hspells, hlast, hadds.takeAll?_eq⟩, fun d hd => ?_⟩
  have hdash : Bytes.ofString d = [Byte.dash] ↔ d = "-" := by
    have hword : Bytes.ofString "-" = [Byte.dash] := by decide
    rw [← hword]
    exact ⟨Utf8.ofString_inj, congrArg Bytes.ofString⟩
  rw [Options.config, hd, Option.getD_some, Destination.ofArgument]
  simp only [hdash]

theorem interleaved_line_parses_back :
    let arguments := ["a.ahk", "-vR", "-", "-f", "-", "--list-kinds", "--", "-x"].map Bytes.ofString
    let o : Options :=
      { files := ["a.ahk", "-", "-x"].map Bytes.ofString
        recursive := true
        listKinds := true
        verbose := true
        destination := some "-" }
    o.RenderedBy arguments ∧ parse arguments = .ok o ∧ o.config.destination = .stdout ∧
      parse o.words = .ok o := by
  intro arguments o
  have hletters : List.Forall₂ Lettered [118, 82] [.verbose, .recursive] :=
    .cons .verbose (.cons .recursive .nil)
  have hrenders : Renders arguments
      [.file (Bytes.ofString "a.ahk"), .switch .verbose, .switch .recursive, .file [Byte.dash],
        .destination (Bytes.ofString "-"), .switch .listKinds, .file (Bytes.ofString "-x")] :=
    .group (.file (Or.inr (by decide))) <| .group (.letters hletters (by decide)) <|
      .group (.file (Or.inl rfl)) <| .group (.short .nil (Or.inl rfl)) <|
        .group (.switch .listKinds) <| .behind [Bytes.ofString "-x"]
  have hrendered : o.RenderedBy arguments := by
    refine ⟨_, hrenders, by decide, by decide, fun s => ?_, by decide⟩
    cases s <;> decide
  obtain ⟨hwords, hparses⟩ := rendered_options_parse_back o
  obtain ⟨hparse, hconfig⟩ := hparses arguments hrendered
  exact ⟨hrendered, hparse, congrArg Config.destination (hconfig "-" rfl),
    (hparses o.words (hwords (by decide))).1⟩

end ScriptTags.Command
