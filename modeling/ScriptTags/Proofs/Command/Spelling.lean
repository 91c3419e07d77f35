import ScriptTags.Command.Parse

/-!
What an accepted command line says. It spells items one after another, in long or in short form,
and it is accepted just where all of them can be taken: a switch and the destination once, and any
number of files that have a name.
-/

namespace ScriptTags.Command

inductive Item where
  | switch (s : Switch)
  | destination (value : Bytes)
  | file (path : Bytes)
deriving DecidableEq, Repr

def Options.take? (o : Options) : Item → Option Options
  | .switch s => if o.has s then none else some (o.turnOn s)
  | .destination value =>
      if o.destination.isSome then none
      else (Utf8.decode? value).map fun path => { o with destination := some path }
  | .file path => if path.isEmpty then none else some { o with files := o.files ++ [path] }

def Options.takeAll? (o : Options) (items : List Item) : Option Options :=
  items.foldlM take? o

/-- Where reading stands: before a word of any kind, before the value that an option asks for, or
behind the end of the options. -/
inductive Place where
  | word
  | value
  | files
deriving DecidableEq, Repr

inductive Letters : Bytes → List Item → Place → Prop
  | nil : Letters [] [] .word
  | switch {b : UInt8} {left : Bytes} {s : Switch} {items : List Item} {place : Place} :
      Flag.ofLetter? b = some (.switch s) → Letters left items place →
      Letters (b :: left) (.switch s :: items) place
  | asking {b : UInt8} : Flag.ofLetter? b = some .file → Letters [b] [] .value
  | giving {b : UInt8} {left : Bytes} :
      Flag.ofLetter? b = some .file → left ≠ [] →
      Letters (b :: left) [.destination (State.clusterValue left)] .word

inductive Step : Place → Bytes → List Item → Place → Prop
  | endOfOptions {word : Bytes} :
      Word.ofArgument word = .endOfOptions → Step .word word [] .files
  | file {word : Bytes} : Word.ofArgument word = .plain → Step .word word [.file word] .word
  | value {word : Bytes} :
      Word.ofArgument word = .plain → Step .value word [.destination word] .word
  | rest {word : Bytes} : Step .files word [.file word] .files
  | switch {word name : Bytes} {s : Switch} :
      Word.ofArgument word = .long name none → Flag.ofLong? name = some (.switch s) →
      Step .word word [.switch s] .word
  | asking {word name : Bytes} :
      Word.ofArgument word = .long name none → Flag.ofLong? name = some .file →
      Step .word word [] .value
  | giving {word name value : Bytes} :
      Word.ofArgument word = .long name (some value) → Flag.ofLong? name = some .file →
      Step .word word [.destination value] .word
  | cluster {word letters : Bytes} {items : List Item} {place : Place} :
      Word.ofArgument word = .cluster letters → Letters letters items place →
      Step .word word items place

inductive Spells : Place → List Bytes → List Item → Place → Prop
  | nil (place : Place) : Spells place [] [] place
  | cons {place next last : Place} {word : Bytes} {words : List Bytes} {items more : List Item} :
      Step place word items next → Spells next words more last →
      Spells place (word :: words) (items ++ more) last

section

variable {word letters name : Bytes} {value : Option Bytes}

theorem ofArgument_eq_endOfOptions_iff :
    Word.ofArgument word = .endOfOptions ↔ word = [Byte.dash, Byte.dash] := by
  rcases word with _ | ⟨b, _ | ⟨c, s⟩⟩ <;> grind [Word.ofArgument]

theorem ofArgument_eq_cluster_iff :
    Word.ofArgument word = .cluster letters ↔
      ∃ b left, b ≠ Byte.dash ∧ letters = b :: left ∧ word = Byte.dash :: b :: left := by
  rcases word with _ | ⟨b, _ | ⟨c, s⟩⟩ <;> grind [Word.ofArgument]

theorem ofArgument_eq_long_iff :
    Word.ofArgument word = .long name value ↔
      ∃ s, s ≠ [] ∧ word = Byte.dash :: Byte.dash :: s ∧
        name = s.takeWhile (· != Byte.equals) ∧ value = afterEquals? s := by
  rcases word with _ | ⟨b, _ | ⟨c, s⟩⟩ <;> grind [Word.ofArgument]

end

theorem ofLong?_eq_switch_iff {name : Bytes} {s : Switch} :
    Flag.ofLong? name = some (.switch s) ↔ name = Bytes.ofString s.long := by
  constructor
  · intro h
    rw [Flag.ofLong?] at h
    split at h
    · cases h
    split at h
    · cases h
    split at h
    · cases h
    obtain ⟨s', hfind, hs⟩ := Option.map_eq_some_iff.mp h
    cases hs
    have hname := List.find?_some hfind
    exact of_decide_eq_true hname
  · rintro rfl
    cases s <;> decide

theorem ofArgument_cluster {b : UInt8} {f : Flag} (h : Flag.ofLetter? b = some f) (left : Bytes) :
    Word.ofArgument (Byte.dash :: b :: left) = .cluster (b :: left) := by
  have hdash : Flag.ofLetter? Byte.dash = none := by decide
  refine ofArgument_eq_cluster_iff.mpr ⟨b, left, ?_, rfl, rfl⟩
  rintro rfl
  cases hdash.symm.trans h

theorem Letters.ofArgument {left : Bytes} {items : List Item} {place : Place}
    (h : Letters left items place) (hleft : left ≠ []) :
    Word.ofArgument (Byte.dash :: left) = .cluster left := by
  cases h with
  | nil => exact absurd rfl hleft
  | switch hletter | asking hletter | giving hletter => exact ofArgument_cluster hletter _

theorem bind_eq_ok_iff {α β : Type} {x : Except Halt α} {f : α → Except Halt β} {b : β} :
    (x >>= f) = .ok b ↔ ∃ a, x = .ok a ∧ f a = .ok b := by
  cases x <;> simp [bind, Except.bind]

namespace Options

variable {o o' : Options} {item : Item} {items items' : List Item} {value : Bytes}

@[simp]
theorem takeAll?_nil (o : Options) : o.takeAll? [] = some o := rfl

@[simp]
theorem takeAll?_cons (o : Options) (item : Item) (items : List Item) :
    o.takeAll? (item :: items) = (o.take? item).bind (·.takeAll? items) := rfl

theorem takeAll?_append (o : Options) (items items' : List Item) :
    o.takeAll? (items ++ items') = (o.takeAll? items).bind (·.takeAll? items') := by
  induction items generalizing o with
  | nil => rfl
  | cons item items ih =>
      rw [List.cons_append, takeAll?_cons, takeAll?_cons, Option.bind_assoc]
      exact congrArg _ (funext ih)

theorem takeAll?_files (o : Options) (paths : List Bytes) :
    o.takeAll? (paths.map .file) =
      if paths.any List.isEmpty then none else some { o with files := o.files ++ paths } := by
  induction paths generalizing o with
  | nil => simp
  | cons path paths ih =>
      rw [List.map_cons, takeAll?_cons, take?, List.any_cons]
      cases path.isEmpty with
      | true => rfl
      | false => simp [ih]

theorem take?_switch_eq_some_iff {s : Switch} :
    o.take? (.switch s) = some o' ↔ ¬o.has s = true ∧ o.turnOn s = o' := by
  rw [take?, Option.ite_none_left_eq_some, Option.some_inj]

theorem assign_eq_ok_iff : o.assign value = .ok o' ↔ o.take? (.destination value) = some o' := by
  rw [assign, take?]
  split
  · simp
  · cases Utf8.decode? value <;> simp

end Options

namespace Pending

def held : Pending → List Item
  | .nothing => []
  | .noDestination => []
  | .destination value => [.destination value]
  | .files values => values.map .file

def place : Pending → Place
  | .noDestination => .value
  | _ => .word

end Pending

namespace State

def gives? (st : State) (items : List Item) : Option Options :=
  st.options.takeAll? (st.pending.held ++ items)

variable {st st' st'' : State} {o : Options} {s : Switch} {b : UInt8} {word value left : Bytes}
  {words : List Bytes} {items more : List Item} {place next last : Place}

theorem gives?_append (st : State) (items more : List Item) :
    st.gives? (items ++ more) = (st.gives? items).bind (·.takeAll? more) := by
  rw [gives?, gives?, ← List.append_assoc, Options.takeAll?_append]

theorem exists_gives?_of_append (h : st.gives? (items ++ more) = some o) :
    ∃ o', st.gives? items = some o' := by
  rw [gives?_append, Option.bind_eq_some_iff] at h
  obtain ⟨o', hgives, -⟩ := h
  exact ⟨o', hgives⟩

theorem gives?_singleton (st : State) (item : Item) :
    st.gives? [item] = (st.gives? []).bind (·.take? item) := by
  rw [← List.nil_append [item], gives?_append]
  simp only [Options.takeAll?_cons, Options.takeAll?_nil, Option.bind_fun_some]

structure Takes (st : State) (items : List Item) (place : Place) (st' : State) : Prop where
  place : st'.pending.place = place
  gives : ∀ more, st'.gives? more = st.gives? (items ++ more)

theorem takes_of_gives? (h : st.gives? items = some o) (p : Pending) (hheld : p.held = []) :
    st.Takes items p.place { options := o, pending := p } where
  place := rfl
  gives more := by
    rw [gives?_append, h, gives?, hheld]
    rfl

theorem Takes.trans (h : st.Takes items place st') (h' : st'.Takes more next st'') :
    st.Takes (items ++ more) next st'' where
  place := h'.place
  gives rest := by rw [h'.gives, h.gives, List.append_assoc]

theorem settle_eq_ok_iff :
    st.settle = .ok o ↔ st.pending.place = .word ∧ st.gives? [] = some o := by
  obtain ⟨options, pending⟩ := st
  rw [settle, gives?, List.append_nil]
  cases pending with
  | nothing => simp [Pending.place, Pending.held]
  | noDestination => simp [Pending.place]
  | destination value => simp [Pending.place, Pending.held, Options.assign_eq_ok_iff]
  | files values =>
      simp only [Pending.place, Pending.held, Options.takeAll?_files, true_and]
      split <;> simp

theorem flag_switch_eq_ok_iff :
    st.flag (.switch s) = .ok st' ↔
      st.pending.place = .word ∧ ∃ o, st.gives? [.switch s] = some o ∧ st' = { options := o } := by
  rw [flag, bind_eq_ok_iff, gives?_singleton]
  simp only [settle_eq_ok_iff, Option.bind_eq_some_iff, Options.take?_switch_eq_some_iff]
  constructor
  · rintro ⟨o, ⟨hplace, hgives⟩, hflag⟩
    split at hflag
    · cases hflag
    next hfree =>
      cases hflag
      exact ⟨hplace, o.turnOn s, ⟨o, hgives, hfree, rfl⟩, rfl⟩
  · rintro ⟨hplace, _, ⟨o, hgives, hfree, rfl⟩, rfl⟩
    exact ⟨o, ⟨hplace, hgives⟩, if_neg hfree⟩

theorem flag_file_eq_ok_iff :
    st.flag .file = .ok st' ↔
      st.pending.place = .word ∧
        ∃ o, st.gives? [] = some o ∧ st' = { options := o, pending := .noDestination } := by
  rw [flag, bind_eq_ok_iff]
  simp only [settle_eq_ok_iff, Except.ok.injEq]
  constructor
  · rintro ⟨o, ⟨hplace, hgives⟩, rfl⟩
    exact ⟨hplace, o, hgives, rfl⟩
  · rintro ⟨hplace, o, hgives, rfl⟩
    exact ⟨o, ⟨hplace, hgives⟩, rfl⟩

theorem flag_halts {f : Flag} (hf : f = .help ∨ f = .version) : st.flag f ≠ .ok st' := by
  intro h
  obtain ⟨o, -, hhalt⟩ := bind_eq_ok_iff.mp h
  rcases hf with rfl | rfl <;> cases hhalt

theorem attach_eq_ok_iff :
    st.attach value = .ok st' ↔
      st.pending.place = .word ∧
        ∃ o, st.gives? [.destination value] = some o ∧ st' = { options := o } := by
  rw [attach, bind_eq_ok_iff, gives?_singleton]
  simp only [settle_eq_ok_iff, bind_eq_ok_iff, Options.assign_eq_ok_iff, Option.bind_eq_some_iff]
  constructor
  · rintro ⟨o, ⟨hplace, hgives⟩, o', htake, hpure⟩
    cases hpure
    exact ⟨hplace, o', ⟨o, hgives, htake⟩, rfl⟩
  · rintro ⟨hplace, o', ⟨o, hgives, htake⟩, rfl⟩
    exact ⟨o, ⟨hplace, hgives⟩, o', htake, rfl⟩

theorem takes_of_file (h : st.file word = .ok st') :
    st.pending.place = .word ∧ st.Takes [.file word] .word st' := by
  obtain ⟨options, pending⟩ := st
  cases pending with
  | files values =>
      cases h
      exact ⟨rfl, rfl, fun more => by simp [gives?, Pending.held]⟩
  | nothing | noDestination | destination value =>
      obtain ⟨o, hsettle, hstate⟩ := bind_eq_ok_iff.mp h
      obtain ⟨hplace, hgives⟩ := settle_eq_ok_iff.mp hsettle
      cases hstate
      refine ⟨hplace, rfl, fun more => ?_⟩
      rw [← List.nil_append ([Item.file word] ++ more), gives?_append, hgives]
      rfl

theorem exists_file (hplace : st.pending.place = .word)
    (h : st.gives? (.file word :: more) = some o) : ∃ st', st.file word = .ok st' := by
  obtain ⟨options, pending⟩ := st
  cases pending with
  | files values => exact ⟨_, rfl⟩
  | nothing | noDestination | destination value =>
      rw [← List.nil_append (.file word :: more)] at h
      obtain ⟨o', hgives⟩ := exists_gives?_of_append h
      exact ⟨_, bind_eq_ok_iff.mpr ⟨o', settle_eq_ok_iff.mpr ⟨hplace, hgives⟩, rfl⟩⟩

theorem files_eq_ok_iff :
    st.files words = .ok o ↔
      st.pending.place = .word ∧ st.gives? (words.map .file) = some o := by
  induction words generalizing st with
  | nil => exact settle_eq_ok_iff
  | cons word words ih =>
      rw [files, bind_eq_ok_iff, List.map_cons]
      constructor
      · rintro ⟨st', hfile, hfiles⟩
        obtain ⟨hplace, htakes⟩ := takes_of_file hfile
        refine ⟨hplace, ?_⟩
        rw [← (ih.mp hfiles).2, htakes.gives]
        rfl
      · rintro ⟨hplace, hgives⟩
        obtain ⟨st', hfile⟩ := exists_file hplace hgives
        have htakes := (takes_of_file hfile).2
        exact ⟨st', hfile, ih.mpr ⟨htakes.place, (htakes.gives _).trans hgives⟩⟩

theorem plain_of_place (hplace : st.pending.place = .word) : st.plain word = st.file word := by
  obtain ⟨options, pending⟩ := st
  cases pending with
  | noDestination => cases hplace
  | nothing | destination value | files values => rfl

theorem cluster_switch (hletter : Flag.ofLetter? b = some (.switch s)) :
    st.cluster (b :: left) = st.flag (.switch s) >>= (·.cluster left) := by
  rw [cluster, hletter]
  rfl

theorem cluster_asking (hletter : Flag.ofLetter? b = some .file) :
    st.cluster [b] = st.flag .file := by
  rw [cluster, hletter]
  exact bind_pure (st.flag .file)

theorem cluster_giving (hletter : Flag.ofLetter? b = some .file) (hleft : left ≠ []) :
    st.cluster (b :: left) = st.attach (clusterValue left) := by
  rw [cluster, hletter]
  simp [hleft]

def readWord (st : State) (word : Bytes) : Except Halt State :=
  match Word.ofArgument word with
  | .endOfOptions => .ok st
  | .long name value => st.long name value
  | .cluster letters => st.cluster letters
  | .plain => st.plain word

theorem words_cons (h : Word.ofArgument word ≠ .endOfOptions) :
    st.words (word :: words) = st.readWord word >>= (·.words words) := by
  rw [State.words, readWord]
  cases hkind : Word.ofArgument word with
  | endOfOptions => exact absurd hkind h
  | long name value => rfl
  | cluster letters => rfl
  | plain => rfl

end State

open State

variable {st st' : State} {o : Options} {word left : Bytes} {words files arguments : List Bytes}
  {items more : List Item} {place next last : Place}

theorem exists_letters_of_cluster (hplace : left = [] → st.pending.place = .word)
    (h : st.cluster left = .ok st') :
    st.pending.place = .word ∧
      ∃ items next, Letters left items next ∧ st.Takes items next st' := by
  induction left generalizing st with
  | nil =>
      cases h
      exact ⟨hplace rfl, [], .word, .nil, hplace rfl, fun more => rfl⟩
  | cons b left ih =>
      cases hletter : Flag.ofLetter? b with
      | none =>
          rw [State.cluster, hletter] at h
          cases h
      | some f =>
          cases f with
          | switch s =>
              rw [cluster_switch hletter] at h
              obtain ⟨st'', hflag, hleft⟩ := bind_eq_ok_iff.mp h
              obtain ⟨hword, o, hgives, rfl⟩ := flag_switch_eq_ok_iff.mp hflag
              obtain ⟨-, items, next, hletters, htakes⟩ := ih (fun _ => rfl) hleft
              exact ⟨hword, _, next, .switch hletter hletters,
                (takes_of_gives? hgives .nothing rfl).trans htakes⟩
          | file =>
              by_cases hleft : left = []
              · subst hleft
                rw [cluster_asking hletter] at h
                obtain ⟨hword, o, hgives, rfl⟩ := flag_file_eq_ok_iff.mp h
                exact ⟨hword, _, _, .asking hletter, takes_of_gives? hgives .noDestination rfl⟩
              · rw [cluster_giving hletter hleft] at h
                obtain ⟨hword, o, hgives, rfl⟩ := attach_eq_ok_iff.mp h
                exact ⟨hword, _, _, .giving hletter hleft, takes_of_gives? hgives .nothing rfl⟩
          | help | version =>
              rw [State.cluster, hletter] at h
              obtain ⟨st'', hflag, -⟩ := bind_eq_ok_iff.mp h
              exact absurd hflag (flag_halts (by simp))

theorem Letters.read (h : Letters left items next) (hplace : st.pending.place = .word)
    (hgives : st.gives? (items ++ more) = some o) :
    ∃ st', st.cluster left = .ok st' ∧ st.Takes items next st' := by
  induction h generalizing st with
  | nil => exact ⟨st, rfl, hplace, fun more => rfl⟩
  | @switch b left s items next hletter _ ih =>
      rw [List.cons_append, ← List.singleton_append] at hgives
      obtain ⟨o', hswitch⟩ := exists_gives?_of_append hgives
      have htakes := takes_of_gives? hswitch .nothing rfl
      obtain ⟨st', hcluster, htakes'⟩ := ih rfl ((htakes.gives _).trans hgives)
      refine ⟨st', ?_, htakes.trans htakes'⟩
      rw [cluster_switch hletter]
      exact bind_eq_ok_iff.mpr
        ⟨_, flag_switch_eq_ok_iff.mpr ⟨hplace, o', hswitch, rfl⟩, hcluster⟩
  | asking hletter =>
      obtain ⟨o', hheld⟩ := exists_gives?_of_append hgives
      refine ⟨_, ?_, takes_of_gives? hheld .noDestination rfl⟩
      rw [cluster_asking hletter]
      exact flag_file_eq_ok_iff.mpr ⟨hplace, o', hheld, rfl⟩
  | giving hletter hleft =>
      obtain ⟨o', hdestination⟩ := exists_gives?_of_append hgives
      refine ⟨_, ?_, takes_of_gives? hdestination .nothing rfl⟩
      rw [cluster_giving hletter hleft]
      exact attach_eq_ok_iff.mpr ⟨hplace, o', hdestination, rfl⟩

theorem exists_step_of_long {name : Bytes} {value : Option Bytes}
    (hkind : Word.ofArgument word = .long name value) (h : st.long name value = .ok st') :
    st.pending.place = .word ∧
      ∃ items next, Step .word word items next ∧ st.Takes items next st' := by
  rw [State.long.eq_def] at h
  split at h
  · cases h
  next f hname =>
    cases f with
    | switch s =>
        obtain ⟨hword, o, hgives, rfl⟩ := flag_switch_eq_ok_iff.mp h
        exact ⟨hword, _, _, .switch hkind hname, takes_of_gives? hgives .nothing rfl⟩
    | file =>
        obtain ⟨hword, o, hgives, rfl⟩ := flag_file_eq_ok_iff.mp h
        exact ⟨hword, _, _, .asking hkind hname, takes_of_gives? hgives .noDestination rfl⟩
    | help | version => exact absurd h (flag_halts (by simp))
  next value hname =>
    obtain ⟨hword, o, hgives, rfl⟩ := attach_eq_ok_iff.mp h
    exact ⟨hword, _, _, .giving hkind hname, takes_of_gives? hgives .nothing rfl⟩
  · cases h

theorem exists_step_of_plain (hkind : Word.ofArgument word = .plain)
    (h : st.plain word = .ok st') :
    ∃ items next, Step st.pending.place word items next ∧ st.Takes items next st' := by
  obtain ⟨options, pending⟩ := st
  cases pending with
  | noDestination =>
      cases h
      exact ⟨_, _, .value hkind, rfl, fun more => rfl⟩
  | nothing | destination value | files values =>
      rw [plain_of_place rfl] at h
      exact ⟨_, _, .file hkind, (takes_of_file h).2⟩

theorem exists_step_of_readWord (hkind : Word.ofArgument word ≠ .endOfOptions)
    (h : st.readWord word = .ok st') :
    ∃ items next, Step st.pending.place word items next ∧ st.Takes items next st' := by
  rw [readWord] at h
  split at h
  next hends => exact absurd hends hkind
  next name value hlong =>
    obtain ⟨hplace, hstep⟩ := exists_step_of_long hlong h
    rwa [hplace]
  next letters hcluster =>
    obtain ⟨b, left, -, rfl, -⟩ := ofArgument_eq_cluster_iff.mp hcluster
    obtain ⟨hplace, items, next, hletters, htakes⟩ :=
      exists_letters_of_cluster (fun hnil => absurd hnil (List.cons_ne_nil b left)) h
    rw [hplace]
    exact ⟨items, next, .cluster hcluster hletters, htakes⟩
  next hplain => exact exists_step_of_plain hplain h

theorem Step.read (h : Step place word items next) (hplace : st.pending.place = place)
    (hnext : next ≠ .files) (hgives : st.gives? (items ++ more) = some o) :
    ∃ st', st.readWord word = .ok st' ∧ st.Takes items next st' := by
  cases h with
  | endOfOptions | rest => exact absurd rfl hnext
  | file hkind =>
      obtain ⟨st', hfile⟩ := exists_file hplace hgives
      refine ⟨st', ?_, (takes_of_file hfile).2⟩
      simp only [readWord, hkind]
      rw [plain_of_place hplace, hfile]
  | value hkind =>
      obtain ⟨options, pending⟩ := st
      cases pending with
      | noDestination =>
          refine ⟨{ options, pending := .destination word }, ?_, rfl, fun more => rfl⟩
          simp only [readWord, hkind, plain]
      | nothing | destination value | files values => cases hplace
  | switch hkind hname =>
      obtain ⟨o', hswitch⟩ := exists_gives?_of_append hgives
      refine ⟨_, ?_, takes_of_gives? hswitch .nothing rfl⟩
      simp only [readWord, hkind, State.long, hname]
      exact flag_switch_eq_ok_iff.mpr ⟨hplace, o', hswitch, rfl⟩
  | asking hkind hname =>
      obtain ⟨o', hheld⟩ := exists_gives?_of_append hgives
      refine ⟨_, ?_, takes_of_gives? hheld .noDestination rfl⟩
      simp only [readWord, hkind, State.long, hname]
      exact flag_file_eq_ok_iff.mpr ⟨hplace, o', hheld, rfl⟩
  | giving hkind hname =>
      obtain ⟨o', hdestination⟩ := exists_gives?_of_append hgives
      refine ⟨_, ?_, takes_of_gives? hdestination .nothing rfl⟩
      simp only [readWord, hkind, State.long, hname]
      exact attach_eq_ok_iff.mpr ⟨hplace, o', hdestination, rfl⟩
  | cluster hkind hletters =>
      simp only [readWord, hkind]
      exact hletters.read hplace hgives

theorem Step.spells (h : Step place word items next) : Spells place [word] items next := by
  rw [← List.append_nil items]
  exact .cons h (.nil next)

theorem spells_files_iff :
    Spells .files words items last ↔ items = words.map .file ∧ last = .files := by
  induction words generalizing items with
  | nil =>
      constructor
      · rintro ⟨⟩
        exact ⟨rfl, rfl⟩
      · rintro ⟨rfl, rfl⟩
        exact .nil .files
  | cons word words ih =>
      constructor
      · rintro (_ | ⟨⟨⟩, hrest⟩)
        obtain ⟨rfl, hlast⟩ := ih.mp hrest
        exact ⟨rfl, hlast⟩
      · rintro ⟨rfl, rfl⟩
        exact .cons .rest (ih.mpr ⟨rfl, rfl⟩)

theorem Letters.next_ne_files (h : Letters left items next) : next ≠ .files := by
  induction h with
  | nil | asking | giving => nofun
  | switch _ _ ih => exact ih

theorem Step.next_ne_files (h : Step place word items next) (hplace : place ≠ .files)
    (hkind : Word.ofArgument word ≠ .endOfOptions) : next ≠ .files := by
  cases h with
  | endOfOptions hends => exact absurd hends hkind
  | rest => exact absurd rfl hplace
  | file | value | switch | asking | giving => nofun
  | cluster _ hletters => exact hletters.next_ne_files

theorem Step.of_endOfOptions (h : Step place word items next) (hplace : place ≠ .files)
    (hkind : Word.ofArgument word = .endOfOptions) :
    place = .word ∧ items = [] ∧ next = .files := by
  cases h with
  | endOfOptions => exact ⟨rfl, rfl, rfl⟩
  | rest => exact absurd rfl hplace
  | file hother | value hother | switch hother | asking hother | giving hother | cluster hother =>
      cases hkind.symm.trans hother

theorem Step.of_cluster {letters : Bytes} (h : Step place word items next) (hplace : place ≠ .files)
    (hkind : Word.ofArgument word = .cluster letters) :
    place = .word ∧ Letters letters items next := by
  cases h with
  | rest => exact absurd rfl hplace
  | cluster hother hletters =>
      cases hkind.symm.trans hother
      exact ⟨rfl, hletters⟩
  | endOfOptions hother | file hother | value hother | switch hother | asking hother
  | giving hother => cases hkind.symm.trans hother

theorem Step.of_switch {name : Bytes} {s : Switch} (h : Step place word items next)
    (hplace : place ≠ .files) (hkind : Word.ofArgument word = .long name none)
    (hname : Flag.ofLong? name = some (.switch s)) :
    place = .word ∧ items = [.switch s] ∧ next = .word := by
  cases h with
  | rest => exact absurd rfl hplace
  | switch hother hswitch =>
      cases hkind.symm.trans hother
      cases hname.symm.trans hswitch
      exact ⟨rfl, rfl, rfl⟩
  | asking hother hfile =>
      cases hkind.symm.trans hother
      cases hname.symm.trans hfile
  | endOfOptions hother | file hother | value hother | giving hother | cluster hother =>
      cases hkind.symm.trans hother

theorem spells_append_iff :
    Spells place (words ++ files) items last ↔
      ∃ front mid rest, Spells place words front mid ∧ Spells mid files rest last ∧
        items = front ++ rest := by
  induction words generalizing place items with
  | nil =>
      constructor
      · intro h
        exact ⟨[], place, items, .nil place, h, rfl⟩
      · rintro ⟨_, _, rest, ⟨⟩, h, rfl⟩
        exact h
  | cons word words ih =>
      constructor
      · rintro (_ | ⟨hstep, hrest⟩)
        obtain ⟨front, mid, rest, hfront, hfiles, rfl⟩ := ih.mp hrest
        exact ⟨_, mid, rest, .cons hstep hfront, hfiles, (List.append_assoc ..).symm⟩
      · rintro ⟨_, mid, rest, _ | ⟨hstep, hfront⟩, hfiles, rfl⟩
        rw [List.append_assoc]
        exact .cons hstep (ih.mpr ⟨_, mid, rest, hfront, hfiles, rfl⟩)

theorem Spells.last_ne_files (h : Spells place words items last) (hplace : place ≠ .files)
    (hwords : [Byte.dash, Byte.dash] ∉ words) : last ≠ .files := by
  induction h with
  | nil => exact hplace
  | cons hstep _ ih =>
      rw [List.mem_cons, not_or] at hwords
      refine ih (hstep.next_ne_files hplace fun hends => ?_) hwords.2
      exact hwords.1 (ofArgument_eq_endOfOptions_iff.mp hends).symm

theorem Pending.place_ne_files (p : Pending) : p.place ≠ .files := by
  cases p <;> nofun

theorem Pending.place_eq_word {p : Pending} (h : p.place ≠ .value) : p.place = .word := by
  cases p with
  | noDestination => exact absurd rfl h
  | nothing | destination value | files values => rfl

theorem words_eq_ok_iff :
    st.words words = .ok o ↔
      ∃ items last, Spells st.pending.place words items last ∧ last ≠ .value ∧
        st.gives? items = some o := by
  induction words generalizing st with
  | nil =>
      refine settle_eq_ok_iff.trans ⟨?_, ?_⟩
      · rintro ⟨hplace, hgives⟩
        exact ⟨[], _, .nil _, by rw [hplace]; nofun, hgives⟩
      · rintro ⟨items, last, hspells, hlast, hgives⟩
        cases hspells
        exact ⟨Pending.place_eq_word hlast, hgives⟩
  | cons word words ih =>
      have hplace := st.pending.place_ne_files
      by_cases hkind : Word.ofArgument word = .endOfOptions
      · rw [State.words, hkind]
        refine files_eq_ok_iff.trans ⟨?_, ?_⟩
        · rintro ⟨hword, hgives⟩
          rw [hword]
          exact ⟨_, .files, .cons (.endOfOptions hkind) (spells_files_iff.mpr ⟨rfl, rfl⟩), nofun,
            hgives⟩
        · rintro ⟨_, last, hspells, -, hgives⟩
          obtain _ | ⟨hstep, hrest⟩ := hspells
          obtain ⟨hword, rfl, rfl⟩ := hstep.of_endOfOptions hplace hkind
          obtain ⟨rfl, -⟩ := spells_files_iff.mp hrest
          exact ⟨hword, hgives⟩
      · rw [words_cons hkind, bind_eq_ok_iff]
        constructor
        · rintro ⟨st', hread, hwords⟩
          obtain ⟨items, next, hstep, htakes⟩ := exists_step_of_readWord hkind hread
          obtain ⟨more, last, hspells, hlast, hgives⟩ := ih.mp hwords
          rw [htakes.place] at hspells
          exact ⟨_, last, .cons hstep hspells, hlast, (htakes.gives more).symm.trans hgives⟩
        · rintro ⟨_, last, hspells, hlast, hgives⟩
          obtain _ | ⟨hstep, hrest⟩ := hspells
          obtain ⟨st', hread, htakes⟩ := hstep.read rfl (hstep.next_ne_files hplace hkind) hgives
          rw [← htakes.place] at hrest
          exact ⟨st', hread, ih.mpr ⟨_, last, hrest, hlast, (htakes.gives _).trans hgives⟩⟩

theorem parse_eq_ok_iff :
    parse arguments = .ok o ↔
      ∃ items last, Spells .word arguments items last ∧ last ≠ .value ∧
        Options.takeAll? {} items = some o :=
  words_eq_ok_iff

end ScriptTags.Command
