import ElementLocator.CommandLine.Options
import Mathlib

/-!
# Writing arguments

Options are written as groups of arguments: the file, each flag together with its value, and each switch that is on.
The groups may stand in any order, except that the refinements keep theirs. Reading such arguments gives back the
options, and reading fails when a second file or an unknown flag is put between two groups, and when the arguments end
behind a flag that still needs its value.
-/

namespace ElementLocator.CommandLine

/-! ### Refinements -/

/-- A digit that is appended makes a number no smaller. -/
theorem le_ofDigitChars (cs : List Char) (n : Nat) : n ≤ Nat.ofDigitChars 10 cs n := by
  induction cs generalizing n with
  | nil => exact Nat.le_refl n
  | cons c rest ih =>
    rw [Nat.ofDigitChars_cons]
    exact Nat.le_trans (by omega) (ih _)

/-- Digits whose value does not pass the greatest index are read as that value. -/
theorem appendDigits_of_le {cs : List Char} {n : Nat} (hdigits : ∀ c ∈ cs, c.isDigit = true)
    (hle : Nat.ofDigitChars 10 cs n ≤ greatestIndex) : appendDigits n cs = .ok (Nat.ofDigitChars 10 cs n) := by
  induction cs generalizing n with
  | nil => rfl
  | cons c rest ih =>
    obtain ⟨hc, hrest⟩ := List.forall_mem_cons.1 hdigits
    rw [Nat.ofDigitChars_cons] at hle ⊢
    have hnext : ¬greatestIndex < 10 * n + (c.toNat - 0x30) := Nat.not_lt.2 ((le_ofDigitChars rest _).trans hle)
    rw [appendDigits, hc, if_neg (by simp), if_neg hnext]
    exact ih hrest hle

/-- The digits of an index read back. -/
theorem readIndex_toDigits {n : Nat} (hn : n ≤ greatestIndex) : readIndex (Nat.toDigits 10 n) = .ok n := by
  have hdigits : ∀ c ∈ Nat.toDigits 10 n, c.isDigit = true :=
    fun c hc => Nat.isDigit_of_mem_toDigits (by decide) (by decide) hc
  have hread : appendDigits 0 (Nat.toDigits 10 n) = .ok n := by
    have hvalue := @Nat.ofDigitChars_ten_toDigits n
    rw [appendDigits_of_le hdigits (hvalue.symm ▸ hn), hvalue]
  obtain ⟨c, rest, hcons⟩ := List.exists_cons_of_ne_nil (Nat.toDigits_ne_nil (n := n) (b := 10))
  rw [hcons] at hdigits hread ⊢
  have hplus : c ≠ '+' := by
    rintro rfl
    exact absurd (hdigits '+' List.mem_cons_self) (by decide)
  rwa [readIndex]
  · nofun
  · rintro c' later heq
    exact hplus (List.cons.inj heq).1

/-- A refinement as it is written on the command line. -/
def Include.text (item : Include) : String :=
  item.scope.name ++ ":" ++ toString item.index ++ ":" ++ item.name ++ "=" ++ item.value

/-- The name is not empty and has no equals sign, and the index is one that the program can hold. -/
structure Include.Writable (item : Include) : Prop where
  name_ne : item.name ≠ ""
  equals_not_mem : '=' ∉ item.name.toList
  index_le : item.index ≤ greatestIndex

/-- The name of a scope has no colon in it. -/
theorem colon_not_mem_name (scope : Scope) : ':' ∉ scope.name.toList := by
  cases scope <;> decide

/-- Decimal digits have no colon among them. -/
theorem colon_not_mem_toDigits (n : Nat) : ':' ∉ Nat.toDigits 10 n :=
  fun h => absurd (Nat.isDigit_of_mem_toDigits (by decide) (by decide) h) (by decide)

/-- What an include writes is read back as the include, because no part in front of the last one has a colon. -/
theorem Include.parse_text {item : Include} (h : item.Writable) : Include.parse item.text = .ok item := by
  have htext : item.text.toList = item.scope.name.toList ++ ':' :: (Nat.toDigits 10 item.index ++
      ':' :: (item.name.toList ++ '=' :: item.value.toList)) := by
    simp [Include.text]
  have hname : item.name.toList.isEmpty = false := by simpa using h.name_ne
  simp only [Include.parse, htext, cutOr, Text.cutAtFirst_of_not_mem (colon_not_mem_name item.scope),
    Text.cutAtFirst_of_not_mem (colon_not_mem_toDigits item.index), Text.cutAtFirst_of_not_mem h.equals_not_mem,
    hname, readIndex_toDigits h.index_le, String.ofList_toList, Scope.ofText?_name, bind, Except.bind,
    Except.mapError, Bool.false_eq_true, if_false]

/-! ### Groups -/

/-- Arguments that belong together. -/
inductive Group where
  | file (path : String)
  | setting (flag : ValueFlag) (value : String)
  | switch (s : Switch)
  deriving Repr, DecidableEq

namespace Group

/-- The arguments of a group. -/
def arguments : Group → List String
  | .file path => [path]
  | .setting flag value => [flag.text, value]
  | .switch s => [s.text]

/-- The path of a file. -/
def file? : Group → Option String
  | .file path => some path
  | _ => none

/-- The value that is given to a flag. -/
def value? (flag : ValueFlag) : Group → Option String
  | .setting given value => if given = flag then some value else none
  | _ => none

end Group

/-- The text starts with two hyphens. -/
def LooksLikeFlag (argument : String) : Prop := ['-', '-'] <+: argument.toList

instance (argument : String) : Decidable (LooksLikeFlag argument) :=
  inferInstanceAs (Decidable (_ <+: _))

/-- A known flag or switch. -/
def IsKnown (argument : String) : Prop :=
  argument ∈ ["--pick", "--relative", "--include", "--config", "--xpath", "--fragment", "--tree", "--dump-dom"]

instance (argument : String) : Decidable (IsKnown argument) :=
  inferInstanceAs (Decidable (_ ∈ _))

/-- An argument that is no known flag stands for none. -/
theorem ofText?_eq_none_of_not_isKnown {argument : String} (h : ¬IsKnown argument) :
    ValueFlag.ofText? argument = none ∧ Switch.ofText? argument = none := by
  simp only [IsKnown, List.mem_cons, List.not_mem_nil, or_false, not_or] at h
  constructor
  · rw [ValueFlag.ofText?, List.find?_eq_none]
    simp [ValueFlag.text, Ne.symm h.1, Ne.symm h.2.1, Ne.symm h.2.2.1, Ne.symm h.2.2.2.1]
  · rw [Switch.ofText?, List.find?_eq_none]
    simp [Switch.text, Ne.symm h.2.2.2.2.1, Ne.symm h.2.2.2.2.2.1, Ne.symm h.2.2.2.2.2.2.1, Ne.symm h.2.2.2.2.2.2.2]

/-- Every known flag starts the way a flag does. -/
theorem looksLikeFlag_of_isKnown {argument : String} (h : IsKnown argument) : LooksLikeFlag argument := by
  simp only [IsKnown, List.mem_cons, List.not_mem_nil, or_false] at h
  rcases h with rfl | rfl | rfl | rfl | rfl | rfl | rfl | rfl <;> decide

/-- A flag with a value is found by its text. -/
@[simp] theorem ValueFlag.ofText?_text (flag : ValueFlag) : ofText? flag.text = some flag := by
  cases flag <;> decide

/-- A switch is found by its text. -/
@[simp] theorem Switch.ofText?_text (s : Switch) : ofText? s.text = some s := by
  cases s <;> decide

/-- No switch is spelled like a flag with a value. -/
theorem Switch.valueFlag_text (s : Switch) : ValueFlag.ofText? s.text = none := by
  cases s <;> decide

namespace Group

/-- The paths of the files among the groups. -/
def files (gs : List Group) : List String := gs.filterMap file?

/-- The values that the groups give to a flag, in order. -/
def valuesOf (flag : ValueFlag) (gs : List Group) : List String := gs.filterMap (value? flag)

/-- The files of two runs of groups are those of the one and then those of the other. -/
theorem files_append (front back : List Group) : files (front ++ back) = files front ++ files back :=
  List.filterMap_append

/-- One more group adds the file that it gives, if it gives one. -/
theorem files_concat (gs : List Group) (g : Group) : files (gs ++ [g]) = files gs ++ g.file?.toList := by
  cases g <;> simp [files, file?]

/-- The values that two runs of groups give a flag are those of the one and then those of the other. -/
theorem valuesOf_append (flag : ValueFlag) (front back : List Group) :
    valuesOf flag (front ++ back) = valuesOf flag front ++ valuesOf flag back :=
  List.filterMap_append

/-- One more group adds the value that it gives the flag, if it gives one. -/
theorem valuesOf_concat (flag : ValueFlag) (gs : List Group) (g : Group) :
    valuesOf flag (gs ++ [g]) = valuesOf flag gs ++ (g.value? flag).toList := by
  rw [valuesOf_append]
  cases hvalue : g.value? flag <;> simp [valuesOf, hvalue]

/-- Settings of one flag give their values to that flag and to no other. -/
theorem valuesOf_map_setting (flag given : ValueFlag) (values : List String) :
    valuesOf flag (values.map (.setting given)) = if given = flag then values else [] := by
  rw [valuesOf, List.filterMap_map]
  by_cases hflag : given = flag <;> simp [hflag, Function.comp_def, value?]

/-- Switches give no flag a value. -/
theorem valuesOf_map_switch (flag : ValueFlag) (switches : List Switch) :
    valuesOf flag (switches.map .switch) = [] := by
  simp [valuesOf, value?]

/-- The path of a file is not a known flag. -/
def Plain (g : Group) : Prop := ∀ path ∈ g.file?, ¬IsKnown path

/-- The path of a file does not look like a flag, and a refinement can be read. -/
def Readable (g : Group) : Prop :=
  (∀ path ∈ g.file?, ¬LooksLikeFlag path) ∧
    ∀ text ∈ g.value? .inclusion, ∃ item, Include.parse text = .ok item

/-- A group that can be read is plain. -/
theorem Readable.plain {g : Group} (h : g.Readable) : g.Plain :=
  fun path hpath hknown => h.1 path hpath (looksLikeFlag_of_isKnown hknown)

end Group

/-! ### Reading groups -/

namespace Draft

variable {draft : Draft} {gs : List Group} {g : Group}

/-- Takes in a group. -/
def take (draft : Draft) : Group → Except ArgumentError Draft
  | .file path => draft.setFile path
  | .setting flag value => draft.setValue value flag
  | .switch s => .ok (draft.turnOn s)

/-- A group is read as one piece, whatever stands behind it. -/
theorem read_group (hg : g.Plain) (draft : Draft) (rest : List String) :
    draft.read (g.arguments ++ rest) = draft.take g >>= fun draft => draft.read rest := by
  cases g with
  | file path =>
    obtain ⟨hflag, hswitch⟩ := ofText?_eq_none_of_not_isKnown (hg path rfl)
    simp [Group.arguments, read, hflag, hswitch, take]
  | setting flag value => simp [Group.arguments, read, take]
  | switch s => simp [Group.arguments, read, Switch.valueFlag_text, take, bind, Except.bind]

/-- Plain groups are taken one after the other before the rest of the arguments is read. -/
theorem read_groups (hgs : ∀ g ∈ gs, g.Plain) (draft : Draft) (rest : List String) :
    draft.read (gs.flatMap Group.arguments ++ rest) = gs.foldlM take draft >>= fun draft => draft.read rest := by
  induction gs generalizing draft with
  | nil => rfl
  | cons g gs ih =>
    obtain ⟨hg, hgs⟩ := List.forall_mem_cons.1 hgs
    rw [List.flatMap_cons, List.append_assoc, read_group hg, List.foldlM_cons, bind_assoc]
    exact bind_congr fun draft => ih hgs draft

/-- An unknown flag ends the reading. -/
theorem read_unknown {flag : String} (hflag : LooksLikeFlag flag) (hunknown : ¬IsKnown flag) (draft : Draft)
    (rest : List String) : draft.read (flag :: rest) = .error (.unknownFlag flag) := by
  obtain ⟨hvalue, hswitch⟩ := ofText?_eq_none_of_not_isKnown hunknown
  have hprefix : ['-', '-'].isPrefixOf flag.toList = true := List.isPrefixOf_iff_prefix.2 hflag
  rw [read, hvalue, hswitch]
  simp [setFile, hprefix, bind, Except.bind]

/-- What groups ask for: the last value of each flag, all refinements, and the switches that are on. -/
def ofGroups (gs : List Group) : Draft where
  file := (Group.files gs).getLast?
  pick := (Group.valuesOf .pick gs).getLast?
  relative := (Group.valuesOf .relative gs).getLast?
  includes := (Group.valuesOf .inclusion gs).filterMap fun text => (Include.parse text).toOption
  xpath := .switch .xpath ∈ gs
  fragment := .switch .fragment ∈ gs
  tree := .switch .tree ∈ gs
  dumpDom := .switch .dumpDom ∈ gs
  config := (Group.valuesOf .config gs).getLast?

/-- A further group adds what it asks for, unless it is a second file. -/
theorem take_ofGroups (hg : g.Readable) (hgs : (Group.files gs)[1]? = none) :
    (ofGroups gs).take g = match (Group.files (gs ++ [g]))[1]? with
      | some second => .error (.unexpected second)
      | none => .ok (ofGroups (gs ++ [g])) := by
  cases g with
  | file path =>
    have hplain : ¬LooksLikeFlag path := hg.1 path rfl
    rw [LooksLikeFlag, ← List.isPrefixOf_iff_prefix] at hplain
    rw [take, setFile, if_neg hplain]
    rcases hfiles : Group.files gs with _ | ⟨first, _ | ⟨second, others⟩⟩
    · simp [ofGroups, hfiles, Group.file?, Group.files_concat, Group.valuesOf_concat, Group.value?]
    · simp [ofGroups, hfiles, Group.file?, Group.files_concat]
    · simp [hfiles] at hgs
  | setting flag value =>
    cases flag with
    | inclusion =>
      obtain ⟨item, hitem⟩ := hg.2 value rfl
      simp [take, setValue, hitem, ofGroups, Group.file?, Group.files_concat, Group.valuesOf_concat, Group.value?, hgs,
        Except.toOption]
    | _ => simp [take, setValue, ofGroups, Group.file?, Group.files_concat, Group.valuesOf_concat, Group.value?, hgs]
  | switch s =>
    cases s <;> simp [take, turnOn, ofGroups, Group.file?, Group.files_concat, Group.valuesOf_concat, Group.value?, hgs]

/-- Groups are taken in one after the other until a second file comes. -/
theorem foldlM_take (hgs : ∀ g ∈ gs, g.Readable) :
    gs.foldlM take {} = match (Group.files gs)[1]? with
      | some second => .error (.unexpected second)
      | none => .ok (ofGroups gs) := by
  induction gs using List.reverseRecOn with
  | nil => rfl
  | append_singleton gs g ih =>
    obtain ⟨hgs, hg⟩ := List.forall_mem_append.1 hgs
    rw [List.foldlM_append, ih hgs]
    cases hsecond : (Group.files gs)[1]? with
    | some second =>
      have hmore : (Group.files (gs ++ [g]))[1]? = some second := by
        rw [Group.files_concat, List.getElem?_append_left (List.getElem?_eq_some_iff.1 hsecond).1, hsecond]
      rw [hmore]
      rfl
    | none =>
      rw [← take_ofGroups (hg g (List.mem_singleton_self g)) hsecond]
      exact bind_pure (m := Except ArgumentError) _

end Draft

/-! ### Arranged options -/

namespace Options

variable {o : Options} {gs front back : List Group} {g : Group}

/-- The values that options give to a flag. -/
def values (o : Options) : ValueFlag → List String
  | .pick => [o.pick]
  | .relative => o.relative.toList
  | .inclusion => o.includes.map Include.text
  | .config => o.config.toList

/-- The switch is on. -/
def isOn (o : Options) : Switch → Bool
  | .xpath => o.xpath
  | .fragment => o.fragment
  | .tree => o.tree
  | .dumpDom => o.dumpDom

/-- The groups that write options. -/
def groups (o : Options) : List Group :=
  .file o.file ::
    ([.pick, .relative, .inclusion, .config].flatMap (fun flag => (o.values flag).map (.setting flag)) ++
      ([.xpath, .fragment, .tree, .dumpDom].filter o.isOn).map .switch)

/-- The groups are those of the options in any order, but the refinements are in theirs. -/
structure Arranges (o : Options) (gs : List Group) : Prop where
  perm : gs.Perm o.groups
  inclusions : Group.valuesOf .inclusion gs = o.values .inclusion

/-- The file does not look like a flag, and the refinements can be written. -/
structure Writable (o : Options) : Prop where
  file : ¬LooksLikeFlag o.file
  includes : ∀ item ∈ o.includes, item.Writable

/-- The written options name their file and no other. -/
theorem files_groups (o : Options) : Group.files o.groups = [o.file] := by
  have hothers : ∀ g ∈ o.groups.tail, g.file? = none := by
    intro g hg
    rw [groups, List.tail_cons, List.mem_append, List.mem_flatMap, List.mem_map] at hg
    rcases hg with ⟨flag, -, hg⟩ | ⟨s, -, rfl⟩
    · obtain ⟨value, -, rfl⟩ := List.mem_map.1 hg
      rfl
    · rfl
  exact congrArg (o.file :: ·) (List.filterMap_eq_nil_iff.2 hothers)

/-- The written options give each flag the values that the options have for it. -/
theorem valuesOf_groups (o : Options) (flag : ValueFlag) : Group.valuesOf flag o.groups = o.values flag := by
  have hfile : Group.valuesOf flag o.groups = Group.valuesOf flag o.groups.tail := rfl
  rw [hfile, groups, List.tail_cons, Group.valuesOf_append, Group.valuesOf_map_switch]
  cases flag <;> simp [Group.valuesOf_append, Group.valuesOf_map_setting, List.flatMap_cons]

/-- A switch is written exactly if the options have it on. -/
theorem switch_mem_groups_iff (o : Options) (s : Switch) : .switch s ∈ o.groups ↔ o.isOn s = true := by
  cases s <;> simp [groups]

/-- Options that can be written are written in groups that can be read. -/
theorem Writable.readable (ho : o.Writable) (hg : g ∈ o.groups) : g.Readable := by
  constructor
  · intro path hpath
    have hmem : path ∈ Group.files o.groups := List.mem_filterMap.2 ⟨g, hg, hpath⟩
    rw [files_groups, List.mem_singleton] at hmem
    exact hmem ▸ ho.file
  · intro text htext
    have hmem : text ∈ Group.valuesOf .inclusion o.groups := List.mem_filterMap.2 ⟨g, hg, htext⟩
    rw [valuesOf_groups] at hmem
    obtain ⟨item, hitem, rfl⟩ := List.mem_map.1 hmem
    exact ⟨item, Include.parse_text (ho.includes item hitem)⟩

namespace Arranges

/-- However the groups are arranged, they name one file. -/
theorem files_eq (h : o.Arranges gs) : Group.files gs = [o.file] :=
  List.perm_singleton.1 (files_groups o ▸ h.perm.filterMap Group.file?)

/-- No order changes the values of a flag, since only refinements have several. -/
theorem valuesOf_eq (h : o.Arranges gs) (flag : ValueFlag) : Group.valuesOf flag gs = o.values flag := by
  have hperm : (Group.valuesOf flag gs).Perm (o.values flag) := valuesOf_groups o flag ▸ h.perm.filterMap _
  cases flag with
  | pick => exact List.perm_singleton.1 hperm
  | relative =>
    cases hrelative : o.relative <;> simpa [values, hrelative] using hperm
  | inclusion => exact h.inclusions
  | config =>
    cases hconfig : o.config <;> simpa [values, hconfig] using hperm

/-- However the groups are arranged, a switch is among them exactly if it is on. -/
theorem switch_mem_iff (h : o.Arranges gs) (s : Switch) : .switch s ∈ gs ↔ o.isOn s = true := by
  rw [h.perm.mem_iff, switch_mem_groups_iff]

/-- However the groups are arranged, each of them can be read. -/
theorem readable (h : o.Arranges gs) (ho : o.Writable) : ∀ g ∈ gs, g.Readable :=
  fun _ hg => ho.readable (h.perm.mem_iff.1 hg)

/-- What the groups ask for is what the options say. -/
theorem complete_ofGroups (h : o.Arranges gs) (ho : o.Writable) : (Draft.ofGroups gs).complete = .ok o := by
  have hincludes : (o.values .inclusion).filterMap (fun text => (Include.parse text).toOption) = o.includes := by
    rw [values, List.filterMap_map]
    refine (List.filterMap_congr fun item hitem => ?_).trans List.filterMap_some
    rw [Function.comp_apply, Include.parse_text (ho.includes item hitem)]
    rfl
  have hlast : ∀ value : Option String, value.toList.getLast? = value := by rintro (_ | _) <;> rfl
  have hswitch : ∀ s, decide (.switch s ∈ gs) = o.isOn s :=
    fun s => Bool.eq_iff_iff.2 (decide_eq_true_iff.trans (h.switch_mem_iff s))
  simp only [Draft.ofGroups, Draft.complete, h.files_eq, h.valuesOf_eq, hincludes, hswitch]
  simp [values, isOn, hlast]

end Arranges

/-! ### Reading arranged options -/

/-- The arguments of groups. -/
def argumentsOf (gs : List Group) : List String := gs.flatMap Group.arguments

/-- Arguments in these groups are read as the options, and it is noticed when one is too many or one is missing. -/
structure WrittenBy (o : Options) (gs : List Group) : Prop where
  read : parse (argumentsOf gs) = .ok o
  second_file : ∀ front back path, gs = front ++ back → ¬LooksLikeFlag path → ∃ second ∈ [o.file, path],
    parse (argumentsOf front ++ path :: argumentsOf back) = .error (.unexpected second)
  unknown_flag : ∀ front back flag, gs = front ++ back → LooksLikeFlag flag → ¬IsKnown flag →
    parse (argumentsOf front ++ flag :: argumentsOf back) = .error (.unknownFlag flag)
  unfinished : ∀ front back flag value, gs = front ++ .setting flag value :: back →
    parse (argumentsOf front ++ [flag.text]) = .error (.missingValue flag.text)

/-- The groups in front are read, and then what stands behind them. -/
theorem parse_append (hgs : ∀ g ∈ gs, g.Readable) (hfiles : (Group.files gs)[1]? = none) (rest : List String) :
    parse (argumentsOf gs ++ rest) = (Draft.ofGroups gs).read rest >>= Draft.complete := by
  rw [parse, argumentsOf, Draft.read_groups fun g hg => (hgs g hg).plain, Draft.foldlM_take hgs, hfiles]
  rfl

/-- A second file is unexpected, whatever groups stand around it. -/
theorem parse_of_second_file (hgs : ∀ g ∈ gs, g.Readable) {second : String}
    (hfiles : (Group.files gs)[1]? = some second) : parse (argumentsOf gs) = .error (.unexpected second) := by
  have hread := Draft.read_groups (fun g hg => (hgs g hg).plain) {} []
  rw [List.append_nil, Draft.foldlM_take hgs, hfiles] at hread
  rw [parse, argumentsOf, hread]
  rfl

namespace Arranges

/-- Groups in front hold no second file. -/
theorem files_front (h : o.Arranges (front ++ back)) : (Group.files front)[1]? = none := by
  have hlength := congrArg List.length h.files_eq
  rw [Group.files_append, List.length_append, List.length_singleton] at hlength
  exact List.getElem?_eq_none (by omega)

/-- The groups in front of a place can be read. -/
theorem readable_front (h : o.Arranges (front ++ back)) (ho : o.Writable) : ∀ g ∈ front, g.Readable :=
  fun g hg => h.readable ho g (List.mem_append_left back hg)

/-- Arranged groups are read as the options that they write. By induction along the arrangement, with what is read so
far left open. -/
theorem parse_eq (h : o.Arranges gs) (ho : o.Writable) : parse (argumentsOf gs) = .ok o := by
  have hfiles : (Group.files gs)[1]? = none := by rw [h.files_eq]; rfl
  have hparse := parse_append (h.readable ho) hfiles []
  rw [List.append_nil] at hparse
  rw [hparse]
  exact h.complete_ofGroups ho

/-- Of two files the second one is not expected. The file of the options stands in front of the other one or behind
it. -/
theorem parse_with_file (h : o.Arranges (front ++ back)) (ho : o.Writable) {path : String}
    (hpath : ¬LooksLikeFlag path) : ∃ second ∈ [o.file, path],
      parse (argumentsOf front ++ path :: argumentsOf back) = .error (.unexpected second) := by
  have hall : ∀ g ∈ front ++ .file path :: back, g.Readable := by
    intro g hg
    rw [List.mem_append, List.mem_cons] at hg
    rcases hg with hg | rfl | hg
    · exact h.readable ho g (List.mem_append_left back hg)
    · exact ⟨by rintro _ ⟨⟩; exact hpath, nofun⟩
    · exact h.readable ho g (List.mem_append_right front hg)
  have hargs : argumentsOf front ++ path :: argumentsOf back = argumentsOf (front ++ .file path :: back) := by
    simp [argumentsOf, Group.arguments]
  have hmore : Group.files (front ++ .file path :: back) = Group.files front ++ path :: Group.files back :=
    Group.files_append front _
  have hfiles := h.files_eq
  rw [Group.files_append, List.append_eq_singleton_iff] at hfiles
  rw [hargs]
  rcases hfiles with ⟨hleft, hright⟩ | ⟨hleft, hright⟩
  · refine ⟨o.file, List.mem_cons_self, parse_of_second_file hall ?_⟩
    rw [hmore, hleft, hright]
    rfl
  · refine ⟨path, by simp, parse_of_second_file hall ?_⟩
    rw [hmore, hleft, hright]
    rfl

/-- An unknown flag is refused behind any groups in front of it. -/
theorem parse_with_flag (h : o.Arranges (front ++ back)) (ho : o.Writable) {flag : String}
    (hflag : LooksLikeFlag flag) (hunknown : ¬IsKnown flag) (rest : List String) :
    parse (argumentsOf front ++ flag :: rest) = .error (.unknownFlag flag) := by
  rw [parse_append (h.readable_front ho) h.files_front, Draft.read_unknown hflag hunknown]
  rfl

/-- A flag at the end of the arguments misses its value. -/
theorem parse_without_value (h : o.Arranges (front ++ back)) (ho : o.Writable) (flag : ValueFlag) :
    parse (argumentsOf front ++ [flag.text]) = .error (.missingValue flag.text) := by
  rw [parse_append (h.readable_front ho) h.files_front]
  simp [Draft.read, bind, Except.bind]

end Arranges

/-- Options that can be written are read back from their groups in any order. -/
theorem writtenBy_of_arranges (ho : o.Writable) (h : o.Arranges gs) : o.WrittenBy gs := by
  constructor
  case read => exact h.parse_eq ho
  case second_file =>
    rintro front back path rfl hpath
    exact h.parse_with_file ho hpath
  case unknown_flag =>
    rintro front back flag rfl hflag hunknown
    exact h.parse_with_flag ho hflag hunknown _
  case unfinished =>
    rintro front back flag value rfl
    exact h.parse_without_value ho flag

/-- Options whose values look like flags, and a refinement with colons in its name and both signs in its value. -/
def trickyOptions : Options where
  file := "page.html"
  pick := "--relative"
  relative := some "--xpath"
  includes := [⟨.relative, 18446744073709551615, "xlink:href", "/a:b=c"⟩, ⟨.main, 0, "id", ""⟩]
  tree := true

/-- The groups of these options, with the file between the refinements. -/
def trickyGroups : List Group :=
  [.setting .inclusion "relative:18446744073709551615:xlink:href=/a:b=c", .switch .tree, .file "page.html",
    .setting .relative "--xpath", .setting .inclusion "main:0:id=", .setting .pick "--relative"]

/-- The arranged groups of the options with colons, hyphens and repeated flags are read back, and each extension of them
fails. -/
theorem writtenBy_of_arranges_tricky :
    trickyOptions.Writable ∧ trickyOptions.Arranges trickyGroups ∧ trickyOptions.WrittenBy trickyGroups :=
  have hwritable : trickyOptions.Writable := ⟨by decide, by
    intro item hitem
    rw [trickyOptions, List.mem_cons, List.mem_singleton] at hitem
    rcases hitem with rfl | rfl <;> exact ⟨by decide, by decide, by decide⟩⟩
  have harranges : trickyOptions.Arranges trickyGroups := ⟨by decide, by decide⟩
  ⟨hwritable, harranges, writtenBy_of_arranges hwritable harranges⟩

end Options

end ElementLocator.CommandLine
