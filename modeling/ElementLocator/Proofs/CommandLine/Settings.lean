import ElementLocator.CommandLine.Run
import ElementLocator.Proofs.Config.Contents
import ElementLocator.Proofs.Text.LetterCase

/-!
# Which layer decides on a setting

The flags, the file and the environment are layers, each of which gives some settings or none. Settings follow layers
when the first layer that gives a setting decides on it, and a default stands for what no layer gives. A run follows
its flags and its file, and it follows its environment only where no file is named.
-/

namespace ElementLocator

namespace Config

/-- The names between the commas of a list, without white space at their ends; blank ones do not count. -/
def listedNames (list : String) : List String :=
  ((Text.splitAtEach ',' list.toList).map fun piece => String.ofList (Text.trimChars piece)).filter (· ≠ "")

/-- What an environment gives: the names that are listed, if there are any, and the grammar that is named. -/
def Given.ofEnvironment (environment : String → Option String) : Given where
  attributes := ((environment "SELPATH_ATTRIBUTES").map listedNames).filter (· ≠ [])
  useXPath := (environment "SELPATH_GRAMMAR").bind fun name =>
    if Text.lower name = "xpath" then some true else if Text.lower name = "css" then some false else none

/-- The first layer that gives a setting decides on it; where no layer does, the default holds. -/
structure Follows (config : Config) (layers : List Given) : Prop where
  grammar : config.grammar = if (layers.findSome? Given.useXPath).getD false then .xpath else .css
  allows : ∀ name, config.allows name = true ↔
    ∃ allowed ∈ (layers.findSome? Given.attributes).getD ({} : Config).attributes, Text.lower allowed = Text.lower name

/-- A name is allowed exactly if it is in the list, in whatever letter case. -/
theorem allows_iff {config : Config} {name : String} :
    config.allows name = true ↔ ∃ allowed ∈ config.attributes, Text.lower allowed = Text.lower name := by
  rw [allows, List.any_eq_true]
  simp only [Text.equalIgnoringCase_iff]

/-- Every setting that the lower layer gives is given by the upper one as well. -/
structure Given.CoveredBy (lower upper : Given) : Prop where
  attributes : lower.attributes.isSome = true → upper.attributes.isSome = true
  useXPath : lower.useXPath.isSome = true → upper.useXPath.isSome = true

/-! ### One layer -/

/-- The names in a list are the listed ones in lower case. -/
theorem namesIn_eq (list : String) : namesIn list = (listedNames list).map Text.lower := by
  rw [namesIn, listedNames]
  induction Text.splitAtEach ',' list.toList with
  | nil => rfl
  | cons piece pieces ih =>
    rw [List.map_cons, List.map_cons, List.filterMap_cons, List.filter_cons, ih]
    cases Text.trimChars piece <;> simp

/-- The environment allows the names that it lists, in lower case. -/
theorem attributesIn?_eq (environment : String → Option String) :
    attributesIn? environment = (Given.ofEnvironment environment).attributes.map (List.map Text.lower) := by
  rw [attributesIn?, attributesVariable, Given.ofEnvironment]
  cases environment "SELPATH_ATTRIBUTES" with
  | none => rfl
  | some list =>
    simp only [Option.bind_some, Option.map_some, namesIn_eq]
    cases listedNames list <;> simp [Option.filter]

/-- The grammar in the environment is the one that its layer gives. -/
theorem grammarIn?_eq (environment : String → Option String) :
    (grammarIn? environment).map (· == .xpath) = (Given.ofEnvironment environment).useXPath := by
  rw [grammarIn?, grammarVariable, Given.ofEnvironment]
  cases environment "SELPATH_GRAMMAR" with
  | none => rfl
  | some name =>
    have hcss : Text.lower Grammar.css.name = "css" := by decide
    have hxpath : Text.lower Grammar.xpath.name = "xpath" := by decide
    simp only [Option.bind_some, Grammar.ofText?, Grammar.all, List.find?, Text.equalIgnoringCase, hcss, hxpath]
    by_cases hc : Text.lower name = "css"
    · simp [hc]
    · by_cases hx : Text.lower name = "xpath"
      · simp [hx]
      · simp [hc, hx, beq_eq_false_iff_ne.2 (Ne.symm hc), beq_eq_false_iff_ne.2 (Ne.symm hx)]

/-- Completed settings follow the layer that was completed. -/
theorem follows_complete (given : Given) : given.complete.Follows [given] where
  grammar := by
    cases h : given.useXPath <;> simp [Given.complete, Config.grammar, h]
  allows name := by
    rw [allows_iff, Given.complete]
    cases h : given.attributes <;> simp [h]

/-- What is read from the environment follows its one layer. -/
theorem follows_ofEnvironment (environment : String → Option String) :
    (ofEnvironment environment).Follows [.ofEnvironment environment] where
  grammar := by
    rw [Config.grammar, ofEnvironment, grammarIn?_eq]
    cases h : (Given.ofEnvironment environment).useXPath <;> simp [h]
  allows name := by
    rw [allows_iff, ofEnvironment, attributesIn?_eq]
    cases h : (Given.ofEnvironment environment).attributes <;> simp [h]

/-! ### Several layers -/

variable {config : Config} {layers : List Given} {given : Given}

/-- Settings follow any other layers in which the same values come first. -/
theorem Follows.congr {others : List Given} (h : config.Follows layers)
    (hattributes : others.findSome? Given.attributes = layers.findSome? Given.attributes)
    (huseXPath : others.findSome? Given.useXPath = layers.findSome? Given.useXPath) : config.Follows others where
  grammar := by rw [h.grammar, huseXPath]
  allows name := by rw [h.allows, hattributes]

/-- A layer that gives nothing does not count. -/
theorem Follows.empty (h : config.Follows layers) : config.Follows ({} :: layers) :=
  h.congr (by simp) (by simp)

/-- A layer that is covered by the one above does not count. -/
theorem Follows.covered {lower upper : Given} (h : config.Follows [upper]) (hcovered : lower.CoveredBy upper) :
    config.Follows [upper, lower] := by
  obtain ⟨hattributes, huseXPath⟩ := hcovered
  refine h.congr ?_ ?_
  · cases hu : upper.attributes <;> cases hl : lower.attributes <;> simp_all
  · cases hu : upper.useXPath <;> cases hl : lower.useXPath <;> simp_all

/-- A layer that gives nothing can stand below another one. -/
theorem Follows.empty_last {upper : Given} (h : config.Follows [upper]) : config.Follows [upper, {}] :=
  h.covered ⟨by simp, by simp⟩

end Config

namespace CommandLine

open Config

/-- What the flags give: they can choose XPath, and nothing else. -/
def Options.flags (options : Options) : Given := { useXPath := if options.xpath then some true else none }

/-- What the file gives: nothing if no file is named, and otherwise what its text gives. -/
inductive Options.FileGives (options : Options) (s : Surroundings) : Given → Prop
  | unnamed : options.config = none → options.FileGives s {}
  | named {path text : String} {given : Given} :
      options.config = some path → s.files path = .ok text → Gives text given → options.FileGives s given

/-- A flag comes before all settings that a run starts from. -/
theorem follows_flags {config : Config} {layers : List Given} (options : Options) (h : config.Follows layers) :
    { config with useXPath := config.useXPath || options.xpath }.Follows (options.flags :: layers) where
  grammar := by
    cases hx : options.xpath
    · have hg := h.grammar
      simp_all [Options.flags, Config.grammar]
    · simp [Options.flags, Config.grammar, hx]
  allows name := by
    have ha := h.allows name
    simp_all [allows_iff, Options.flags]

/-- A run with a readable file has settings. They follow the flags and the file, and the environment counts where no
file is named or where the file gives all that the environment does. -/
theorem Options.settings_follow {options : Options} {s : Surroundings} {given : Given}
    (hfile : options.FileGives s given) :
    ∃ config, options.settings s = .ok config ∧
      config.Follows [options.flags, given, if options.config.isSome then {} else .ofEnvironment s.environment] ∧
      (options.config = none ∨ (Given.ofEnvironment s.environment).CoveredBy given →
        config.Follows [options.flags, given, .ofEnvironment s.environment]) := by
  cases hfile with
  | unnamed hnone =>
    have hbase := (follows_ofEnvironment s.environment).empty
    have hfollows := follows_flags options hbase
    refine ⟨_, by rw [settings, baseConfig, hnone]; rfl, ?_, fun _ => hfollows⟩
    rw [hnone]
    exact hfollows
  | @named path text _ hsome hfile hgives =>
    have hbase := follows_complete given
    refine ⟨{ given.complete with useXPath := given.complete.useXPath || options.xpath }, ?_, ?_, fun hcovered => ?_⟩
    · rw [settings, baseConfig, hsome]
      simp only [ofFile, hfile, hgives.ofJsonText_eq_ok]
      rfl
    · rw [hsome]
      exact follows_flags options hbase.empty_last
    · have hcovered := hcovered.resolve_left (by simp [hsome])
      exact follows_flags options (hbase.covered hcovered)

/-! ### A file beside an environment -/

/-- A page, a file of settings with the given text, and an environment that names XPath. -/
def besideXPath (text : String) : Surroundings where
  files path := .ok (if path = "c.json" then text else "<p>x</p>")
  environment name := if name = "SELPATH_GRAMMAR" then some "xpath" else none

/-- Picks the paragraph with the settings in the file. -/
def pickWithFile : Options := { file := "page.html", pick := "p", config := some "c.json" }

/-- Only the grammar, beside a member that is passed over. -/
def grammarOnly : String := "\x7b\"extra\": [null, -1.5], \"use_xpath\": false\x7d"

open Json.Derives in
/-- The file names the grammar alone. -/
theorem gives_grammarOnly : Gives grammarOnly { useXPath := some false } := by
  have hspace (x : List Char) : Blanks (' ' :: x) x := .cons (by decide) .none
  have hnumber (x : List Char) : Magnitude ('1' :: '.' :: '5' :: x) x :=
    .parts (.digits (by decide) (.one (by decide))) (.point (.one (by decide))) .none
  have hinside (x : List Char) : Inside .array _ x :=
    .cons .none (.scalar .null) .none (hspace _) (.last .none (.scalar (.negative (hnumber (']' :: x)))) .none)
  have hvalue : Setting.Member _ (.useXPath false) ['\x7d'] :=
    .named (.of_unescaped (by simp [Unescaped]) _) .none (hspace _) (.useXPath .no)
  have hname (x : List Char) : StringValue _ "extra" x := .of_unescaped (by simp [Unescaped]) x
  have hextra (x : List Char) : Setting.Member _ .unknown x :=
    .named (hname _) .none (hspace _) (.unknown (by decide) (by decide) (.filled .none (hinside x)))
  have hcontents : Contents _ [.unknown, .useXPath false] [] :=
    .object (.filled .none (.cons (hextra _) .none (hspace _) (.last hvalue .none))) (by simp [Setting.Repeats])
  change Gives _ (.ofSettings [.unknown, .useXPath false])
  exact .contents .none hcontents .none

/-- Only a name of an attribute. -/
def idOnly : String := "\x7b\"attribute_whitelist\": [\"id\"]\x7d"

open Json.Derives in
/-- The file names one attribute alone. -/
theorem gives_idOnly : Gives idOnly { attributes := some ["id"] } := by
  have hspace (x : List Char) : Blanks (' ' :: x) x := .cons (by decide) .none
  have hnames : Bracketed .array StringValue _ ["id"] ['\x7d'] :=
    .filled .none (.last (.of_unescaped (by simp [Unescaped]) _) .none)
  have hmember : Setting.Member _ (.attributes ["id"]) ['\x7d'] :=
    .named (.of_unescaped (by simp [Unescaped]) _) .none (hspace _) (.attributes hnames)
  have hcontents : Contents _ [.attributes ["id"]] [] :=
    .object (.filled .none (.last hmember .none)) (List.pairwise_singleton _ _)
  change Gives _ (.ofSettings [.attributes ["id"]])
  exact .contents .none hcontents .none

/-- The file decides against the environment on what it gives. -/
theorem Options.settings_follow_grammarOnly :
    pickWithFile.FileGives (besideXPath grammarOnly) { useXPath := some false } ∧
      (Given.ofEnvironment (besideXPath grammarOnly).environment).CoveredBy { useXPath := some false } ∧
      ∃ config, pickWithFile.settings (besideXPath grammarOnly) = .ok config ∧
        config.Follows [pickWithFile.flags, { useXPath := some false },
          .ofEnvironment (besideXPath grammarOnly).environment] := by
  have hfile : pickWithFile.FileGives (besideXPath grammarOnly) { useXPath := some false } :=
    .named rfl rfl gives_grammarOnly
  have hcovered : (Given.ofEnvironment (besideXPath grammarOnly).environment).CoveredBy { useXPath := some false } :=
    ⟨by decide, fun _ => rfl⟩
  obtain ⟨config, hsettings, -, hfollows⟩ := settings_follow hfile
  exact ⟨hfile, hcovered, config, hsettings, hfollows (.inr hcovered)⟩

/-- What the file does not give is not taken from the environment. -/
theorem Options.settings_idOnly :
    pickWithFile.FileGives (besideXPath idOnly) { attributes := some ["id"] } ∧
      ∃ config, pickWithFile.settings (besideXPath idOnly) = .ok config ∧
        ¬ config.Follows [pickWithFile.flags, { attributes := some ["id"] },
          .ofEnvironment (besideXPath idOnly).environment] := by
  have hfile : pickWithFile.FileGives (besideXPath idOnly) { attributes := some ["id"] } :=
    .named rfl rfl gives_idOnly
  have hsettings : pickWithFile.settings (besideXPath idOnly) = .ok { attributes := ["id"] } := by
    rw [settings, baseConfig]
    simp only [pickWithFile, ofFile, besideXPath, if_true, gives_idOnly.ofJsonText_eq_ok]
    rfl
  refine ⟨hfile, _, hsettings, fun hfollows => ?_⟩
  have hxpath : (Given.ofEnvironment (besideXPath idOnly).environment).useXPath = some true := by decide
  have hgrammar := hfollows.grammar
  simp [hxpath, Config.grammar, pickWithFile, Options.flags] at hgrammar

end CommandLine

end ElementLocator
