import ElementLocator.Config.Reading
import ElementLocator.Proofs.Json.Skipping

/-!
# What a text of settings gives

A text gives settings as the members of an object, whose order does not count and of which unknown ones count for
nothing, or as the items of an array. Every such text is read as the settings that it gives, with defaults for those
that it does not give.
-/

namespace ElementLocator.Config

open Json Json.Reader Json.Derives

variable {x y z w : List Char}

/-! ### Contents -/

/-- What one member of an object gives. -/
inductive Setting where
  | attributes (names : List String)
  | useXPath (value : Bool)
  | unknown

namespace Setting

/-- The names of attributes that are given. -/
def attributes? : Setting → Option (List String)
  | .attributes names => some names
  | _ => none

/-- The choice of the grammar that is given. -/
def useXPath? : Setting → Option Bool
  | .useXPath value => some value
  | _ => none

/-- Both give the same setting. -/
def Repeats : Setting → Setting → Prop
  | .attributes _, .attributes _ | .useXPath _, .useXPath _ => True
  | _, _ => False

/-- The value of a member with the given name. -/
inductive Value : String → List Char → Setting → List Char → Prop
  | attributes {names : List String} {x y : List Char} :
      Bracketed .array StringValue x names y → Value "attribute_whitelist" x (.attributes names) y
  | useXPath {value : Bool} {x y : List Char} : Truth x value y → Value "use_xpath" x (.useXPath value) y
  | unknown {name : String} {x y : List Char} : name ≠ "attribute_whitelist" → name ≠ "use_xpath" →
      Derives.Value x y → Value name x .unknown y

/-- A member of an object. -/
inductive Member : List Char → Setting → List Char → Prop
  | named {name : String} {setting : Setting} {x y z v w : List Char} :
      StringValue x name y → Blanks y (':' :: z) → Blanks z v → Value name v setting w → Member x setting w

end Setting

/-- The settings in an object, or in an array that holds the attributes and then the choice of the grammar. -/
inductive Contents : List Char → List Setting → List Char → Prop
  | object {settings : List Setting} {x y : List Char} :
      Bracketed .object Setting.Member x settings y → settings.Pairwise (¬ Setting.Repeats · ·) →
      Contents x settings y
  | noItem {x y : List Char} : Blanks x (']' :: y) → Contents ('[' :: x) [] y
  | oneItem {names : List String} {x y z w : List Char} :
      Blanks x y → Bracketed .array StringValue y names z → Blanks z (']' :: w) →
      Contents ('[' :: x) [.attributes names] w
  | twoItems {names : List String} {value : Bool} {x y z v u t w : List Char} :
      Blanks x y → Bracketed .array StringValue y names z → Blanks z (',' :: v) → Blanks v u → Truth u value t →
      Blanks t (']' :: w) → Contents ('[' :: x) [.attributes names, .useXPath value] w

/-- The settings that are given; without repetitions there is at most one of a kind. -/
def Given.ofSettings (settings : List Setting) : Given :=
  ⟨settings.findSome? Setting.attributes?, settings.findSome? Setting.useXPath?⟩

/-- A text that is valid, and what it gives. -/
inductive Gives (text : String) : Given → Prop
  | contents {settings : List Setting} {x y : List Char} :
      Blanks text.toList x → Contents x settings y → Blanks y [] → Gives text (.ofSettings settings)

/-! ### Reading -/

namespace Given

variable {read : Given} {setting other : Setting} {settings : List Setting}

/-- What is read so far, with one more setting. -/
def set (read : Given) (setting : Setting) : Given :=
  ⟨read.attributes.or setting.attributes?, read.useXPath.or setting.useXPath?⟩

/-- The setting was not read yet. -/
def Lacks (read : Given) : Setting → Prop
  | .attributes _ => read.attributes = none
  | .useXPath _ => read.useXPath = none
  | .unknown => True

/-- A setting leaves another one missing, unless both set the same member. -/
theorem Lacks.set (h : read.Lacks other) (hne : ¬ setting.Repeats other) : (read.set setting).Lacks other := by
  cases other with
  | attributes => cases setting <;> simp_all [Lacks, Given.set, Setting.attributes?, Setting.Repeats]
  | useXPath => cases setting <;> simp_all [Lacks, Given.set, Setting.useXPath?, Setting.Repeats]
  | unknown => trivial

/-- Setting one after the other keeps the first of each kind. -/
theorem foldl_set (read : Given) (settings : List Setting) :
    settings.foldl set read = ⟨read.attributes.or (ofSettings settings).attributes,
      read.useXPath.or (ofSettings settings).useXPath⟩ := by
  induction settings generalizing read with
  | nil => simp [ofSettings]
  | cons setting settings ih =>
    rw [List.foldl_cons, ih]
    cases setting <;> simp [set, ofSettings, List.findSome?_cons, Setting.attributes?, Setting.useXPath?]

end Given

/-- The value of a member that has not been read is read into the settings. -/
theorem Setting.Value.reads {name : String} {setting : Setting} {read : Given} (hcolon : Blanks w (':' :: z))
    (hb : Blanks z x) (h : Setting.Value name x setting y) (hend : EndsNumber y) (hlacks : read.Lacks setting) :
    Reads (memberReader name read) w (read.set setting) y := by
  cases h with
  | @attributes names _ _ h =>
    have hnone : read.attributes = none := hlacks
    have hset : read.set (.attributes names) = { read with attributes := some names } := by
      simp [Given.set, hnone, Setting.attributes?, Setting.useXPath?]
    rw [memberReader, if_pos rfl, if_neg (by simp [hnone]), hset]
    exact hcolon.reads_colon.bind <| (h.reads_array hb).bind (reads_pure _)
  | @useXPath value _ _ h =>
    have hnone : read.useXPath = none := hlacks
    have hset : read.set (.useXPath value) = { read with useXPath := some value } := by
      simp [Given.set, hnone, Setting.attributes?, Setting.useXPath?]
    rw [memberReader, if_neg (by decide), if_pos rfl, if_neg (by simp [hnone]), hset]
    exact hcolon.reads_colon.bind <| (h.reads hb).bind (reads_pure _)
  | unknown hname hname' h =>
    have hset : read.set .unknown = read := by
      simp [Given.set, Setting.attributes?, Setting.useXPath?]
    rw [memberReader, if_neg hname, if_neg hname', hset]
    exact hcolon.reads_colon.bind <| (h.reads hb hend).bind (reads_pure _)

/-- By induction on the members: each of them takes one from the bound, and the end takes the last one. -/
theorem reads_membersReader {settings : List Setting} {first : Bool} {read : Given} {bound : Nat}
    (h : Items .object Setting.Member x settings y) (hlead : LeadsTo first w x) (hbound : settings.length < bound)
    (hlacks : ∀ s ∈ settings, read.Lacks s) (hpair : settings.Pairwise (¬ Setting.Repeats · ·)) :
    Reads (membersReader first read bound) w (settings.foldl Given.set read) y := by
  induction h generalizing w first read bound with
  | last hmember hclosing =>
    obtain ⟨bound, rfl⟩ : ∃ more, bound = more + 2 := ⟨bound - 2, (Nat.sub_add_cancel hbound).symm⟩
    obtain ⟨⟨hname⟩, hcolon, hb, hvalue⟩ := hmember
    refine (hlead.reads_nextKey hname).bind ?_
    have hend := hclosing.endsNumber (.inr (.inr rfl))
    refine (hvalue.reads hcolon hb hend (hlacks _ List.mem_cons_self)).bind ?_
    exact hclosing.reads_nextKey.bind (reads_skip.bind (reads_pure _))
  | cons hmember hcomma hb _ ih =>
    obtain ⟨bound, rfl⟩ := Nat.exists_eq_add_one_of_ne_zero (Nat.ne_zero_of_lt hbound)
    obtain ⟨⟨hname⟩, hcolon, hb', hvalue⟩ := hmember
    rw [List.pairwise_cons] at hpair
    refine (hlead.reads_nextKey hname).bind ?_
    have hend := hcomma.endsNumber (.inl rfl)
    refine (hvalue.reads hcolon hb' hend (hlacks _ List.mem_cons_self)).bind ?_
    refine ih (.later hcomma hb) (Nat.lt_of_succ_lt_succ hbound) (fun s hs => ?_) hpair.2
    exact (hlacks s (List.mem_cons_of_mem _ hs)).set (hpair.1 s hs)

/-- The value of a member takes something from the text. -/
theorem Setting.Value.length_lt {name : String} {setting : Setting} (h : Setting.Value name x setting y) :
    y.length < x.length := by
  cases h with
  | attributes h => exact h.length_lt fun _ _ _ => StringValue.length_lt
  | useXPath h => exact h.length_lt
  | unknown _ _ h => exact h.length_lt

/-- A member takes something from the text. -/
theorem Setting.Member.length_lt {setting : Setting} (h : Setting.Member x setting y) : y.length < x.length := by
  obtain ⟨hname, hcolon, hb, hvalue⟩ := h
  have hlt := hname.length_lt
  have hle := hcolon.length_le
  have hle' := hb.length_le
  have hlt' := hvalue.length_lt
  rw [List.length_cons] at hle
  omega

/-- A list with the allowed names alone is read as these names. -/
theorem reads_itemsReader_one {names : List String} (hb : Blanks w x)
    (harray : Bracketed .array StringValue x names y) (hclosing : Blanks y (']' :: z)) :
    Reads itemsReader w ⟨some names, none⟩ (']' :: z) := by
  obtain ⟨rest, rfl⟩ := harray.head
  refine ((LeadsTo.first hb).reads_nextItem (by decide) (by decide)).bind ?_
  rw [if_pos rfl]
  refine (harray.reads_array .none).bind <| hclosing.reads_nextItem.bind ?_
  exact reads_pure _

/-- A list with the allowed names and a truth value is read as both. -/
theorem reads_itemsReader_two {names : List String} {value : Bool} {u v : List Char} (hb : Blanks w x)
    (harray : Bracketed .array StringValue x names y) (hcomma : Blanks y (',' :: z)) (hb' : Blanks z u)
    (hvalue : Truth u value v) : Reads itemsReader w ⟨some names, some value⟩ v := by
  obtain ⟨rest, rfl⟩ := harray.head
  refine ((LeadsTo.first hb).reads_nextItem (by decide) (by decide)).bind ?_
  rw [if_pos rfl]
  refine (harray.reads_array .none).bind ?_
  have hnext : Reads (nextItem false) y true u := by
    cases hvalue <;> exact (LeadsTo.later hcomma hb').reads_nextItem (by decide) (by decide)
  refine hnext.bind ?_
  rw [if_pos rfl]
  exact (hvalue.reads .none).bind (reads_pure _)

/-- The contents are read as what they give, with defaults for the rest. -/
theorem Contents.reads {settings : List Setting} (hb : Blanks w x) (h : Contents x settings y) :
    Reads reader w (Given.ofSettings settings).complete y := by
  cases h with
  | object h hpair =>
    cases h with
    | @empty x _ hclosing =>
      have hmembers : Reads (membersReader true {} (x.length + 1)) x {} y :=
        hclosing.reads_nextKey.bind (reads_skip.bind (reads_pure _))
      refine (hb.reads_valueStart (by decide)).bind <| reads_skip.bind <| .get_bind fun _ => ?_
      exact hmembers.bind (reads_pure _)
    | @filled _ x _ _ hb' hitems =>
      have hlt := hitems.length_lt fun _ _ _ => Setting.Member.length_lt
      have hle := hb'.length_le
      have hbound : settings.length < x.length + 1 := by omega
      have hlacks : ∀ s ∈ settings, ({} : Given).Lacks s := fun s _ => by cases s <;> simp [Given.Lacks]
      have hmembers := reads_membersReader hitems (.first hb') hbound hlacks hpair
      rw [Given.foldl_set] at hmembers
      refine (hb.reads_valueStart (by decide)).bind <| reads_skip.bind <| .get_bind fun _ => ?_
      exact hmembers.bind (reads_pure _)
  | noItem hclosing =>
    have hitems : Reads itemsReader _ {} (']' :: y) := hclosing.reads_nextItem.bind (reads_pure _)
    refine (hb.reads_valueStart (by decide)).bind <| reads_skip.bind <| hitems.bind ?_
    exact Blanks.none.reads_closeArray.bind (reads_pure _)
  | oneItem hb' harray hclosing =>
    refine (hb.reads_valueStart (by decide)).bind <| reads_skip.bind ?_
    refine (reads_itemsReader_one hb' harray hclosing).bind ?_
    exact Blanks.none.reads_closeArray.bind (reads_pure _)
  | twoItems hb' harray hcomma hb'' hvalue hclosing =>
    refine (hb.reads_valueStart (by decide)).bind <| reads_skip.bind ?_
    refine (reads_itemsReader_two hb' harray hcomma hb'' hvalue).bind ?_
    exact hclosing.reads_closeArray.bind (reads_pure _)

/-- A valid text is read as what it gives, with defaults for the rest. -/
theorem Gives.ofJsonText_eq_ok {text : String} {given : Given} (h : Gives text given) :
    ofJsonText text = .ok given.complete := by
  obtain ⟨hb, hcontents, hb'⟩ := h
  exact hb'.readAll_eq_ok (hcontents.reads hb)

end ElementLocator.Config
