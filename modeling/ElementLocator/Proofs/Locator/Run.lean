import ElementLocator.Locator
import ElementLocator.Proofs.Locator.Chain

/-!
# Runs of a locator

A run performs operations one after the other; a refused operation leaves the locator as it is. Beside the locator
go the picks, which a run remembers in the plainest way: the last main node that was accepted, and the last
relative node accepted since. `Effect` lists what one operation can do, and everything that holds of all runs is
derived from that list.
-/

namespace ElementLocator.Locator

/-- What can be done to a locator. -/
inductive Operation where
  | pickMain (n : NodeId)
  | pickRelative (n : NodeId)
  | toggle (scope : Scope) (index : Nat) (name value : String) (included : Bool)
  | setGrammar (grammar : Grammar)
  | setUseXPath (useXPath : Bool)
  deriving Repr, DecidableEq

/-- The operation that picks the node of a scope. -/
def Operation.pick : Scope → NodeId → Operation
  | .main => .pickMain
  | .relative => .pickRelative

/-- The name and the value that an operation toggles. -/
def Operation.toggled? : Operation → Option (String × String)
  | .toggle _ _ name value _ => some (name, value)
  | _ => none

/-- The locator after an operation, or why the operation is refused. -/
def perform (l : Locator) : Operation → Except Error Locator
  | .pickMain n => l.pickMain n
  | .pickRelative n => l.pickRelative n
  | .toggle scope index name value included => (l.toggle scope index name value included).map Prod.snd
  | .setGrammar grammar => .ok (l.setGrammar grammar)
  | .setUseXPath useXPath => .ok (l.setUseXPath useXPath)

/-- Performing a pick picks for its scope. -/
theorem perform_pick (l : Locator) (scope : Scope) (n : NodeId) : l.perform (.pick scope n) = l.pick scope n := by
  cases scope <;> rfl

/-- The locator after an operation that may be refused. -/
def step (l : Locator) (op : Operation) : Locator :=
  match l.perform op with
  | .ok l' => l'
  | .error _ => l

/-- The locator after operations. -/
def run (l : Locator) (ops : List Operation) : Locator := ops.foldl step l

/-- The nodes that are picked. -/
structure Picks where
  main : Option NodeId := none
  relative : Option NodeId := none
  deriving Repr, DecidableEq

namespace Picks

/-- The picked node of a scope. -/
def of (picks : Picks) : Scope → Option NodeId
  | .main => picks.main
  | .relative => picks.relative

/-- The picks after an operation on a locator of the document. -/
def after (d : Document) (picks : Picks) : Operation → Picks
  | .pickMain n => if (validatePick d n).isOk then { main := some n } else picks
  | .pickRelative n => if (validatePick d n).isOk then { picks with relative := some n } else picks
  | _ => picks

/-- The picks after operations that start from none. -/
def ofRun (d : Document) (ops : List Operation) : Picks := ops.foldl (after d) {}

end Picks

/-! ### The effect of one operation -/

/-- An element is a valid pick if it is attached and is not the document element. -/
theorem validatePick_eq_ok {d : Document} {n : NodeId} :
    validatePick d n = .ok () ↔ d.isElement n = true ∧ d.documentElement? ≠ some n ∧ d.isAttached n = true := by
  unfold validatePick
  split
  · simp_all
  split
  · simp_all
  split <;> simp_all

/-- What an operation can do to a locator and its picks. -/
inductive Effect (l : Locator) (picks : Picks) : Operation → Locator → Picks → Prop where
  | refused (op : Operation) : Effect l picks op l picks
  | pickedMain {n : NodeId} : validatePick l.document n = .ok () →
      Effect l picks (.pickMain n)
        { l with registry := (Registry.insertChain {} l.document n).2,
                 main := (Registry.insertChain {} l.document n).1, branch := none }
        { main := some n }
  | pickedRelative {n : NodeId} : validatePick l.document n = .ok () →
      Effect l picks (.pickRelative n)
        { l with registry := ((l.registry.truncate l.main.length).insertBranch l.document n l.main).2,
                 branch := some ((l.registry.truncate l.main.length).insertBranch l.document n l.main).1 }
        { picks with relative := some n }
  | refined {scope : Scope} {index : Nat} {name value : String} {included : Bool} {h : Handle}
      {descriptor changed : Descriptor} : l.registry.get? h = some descriptor →
      descriptor.setIncluded l.document l.config name value included = .ok changed →
      Effect l picks (.toggle scope index name value included) { l with registry := l.registry.set h changed } picks
  | rewritten {op : Operation} (grammar : Grammar) : Effect l picks op { l with grammar } picks

/-- A toggle that is accepted refines one descriptor of the registry. -/
theorem refined_of_toggle {l l' : Locator} {scope : Scope} {index : Nat} {name value : String}
    {included changed : Bool} (h : l.toggle scope index name value included = .ok (changed, l')) :
    ∃ handle descriptor refined, l.registry.get? handle = some descriptor ∧
      descriptor.setIncluded l.document l.config name value included = .ok refined ∧
      l' = { l with registry := l.registry.set handle refined } := by
  unfold toggle at h
  cases hhandle : (l.handles scope)[index]? with
  | none => simp [hhandle] at h
  | some handle =>
    cases hset : l.registry.setIncluded handle l.document l.config name value included with
    | error e => simp [hhandle, hset, bind, Except.bind] at h
    | ok answer =>
      cases answer with
      | none => simp [hhandle, hset, bind, Except.bind] at h
      | some answer =>
        obtain ⟨descriptor, refined, hget, hrefined, heq⟩ := Registry.setIncluded_eq_some hset
        simp only [hhandle, hset, bind, Except.bind, Except.ok.injEq, Prod.mk.injEq] at h
        exact ⟨handle, descriptor, refined, hget, hrefined, by rw [← h.2, heq]⟩

/-- Every operation has one of the listed effects. -/
theorem effect_step (l : Locator) (picks : Picks) (op : Operation) :
    Effect l picks op (l.step op) (picks.after l.document op) := by
  cases op with
  | pickMain n =>
    cases hvalid : validatePick l.document n with
    | error e =>
      simp only [step, perform, pickMain, hvalid, bind, Except.bind, Picks.after, Except.isOk, Except.toBool]
      exact .refused _
    | ok u =>
      simp only [step, perform, pickMain, hvalid, bind, Except.bind, Picks.after, Except.isOk, Except.toBool]
      exact .pickedMain hvalid
  | pickRelative n =>
    cases hvalid : validatePick l.document n with
    | error e =>
      simp only [step, perform, pickRelative, hvalid, bind, Except.bind, Picks.after, Except.isOk, Except.toBool]
      exact .refused _
    | ok u =>
      simp only [step, perform, pickRelative, hvalid, bind, Except.bind, Picks.after, Except.isOk, Except.toBool]
      exact .pickedRelative hvalid
  | toggle scope index name value included =>
    cases htoggle : l.toggle scope index name value included with
    | error e =>
      simp only [step, perform, htoggle, Except.map, Picks.after]
      exact .refused _
    | ok result =>
      obtain ⟨handle, descriptor, refined, hget, hrefined, heq⟩ := refined_of_toggle htoggle
      simp only [step, perform, htoggle, Except.map, Picks.after, heq]
      exact .refined hget hrefined
  | setGrammar grammar => exact .rewritten grammar
  | setUseXPath useXPath => exact .rewritten _

/-! ### Runs -/

/-- Every step keeps the document. -/
theorem document_step (l : Locator) (op : Operation) : (l.step op).document = l.document := by
  obtain ⟨picks, heffect⟩ : ∃ picks, Effect l {} op (l.step op) picks := ⟨_, effect_step l {} op⟩
  generalize l.step op = l' at heffect ⊢
  cases heffect <;> rfl

/-- Every step keeps the configuration. -/
theorem config_step (l : Locator) (op : Operation) : (l.step op).config = l.config := by
  obtain ⟨picks, heffect⟩ : ∃ picks, Effect l {} op (l.step op) picks := ⟨_, effect_step l {} op⟩
  generalize l.step op = l' at heffect ⊢
  cases heffect <;> rfl

/-- What holds at the start and is kept by every effect of the operations of a run holds after the run. -/
theorem run_induction {d : Document} {config : Config} {P : Locator → Picks → Prop} (ops : List Operation)
    (start : P (start d config) {})
    (step : ∀ l picks op l' picks', op ∈ ops → l.document = d → l.config = config → P l picks →
      Effect l picks op l' picks' → P l' picks') :
    P ((Locator.start d config).run ops) (Picks.ofRun d ops) := by
  have hrun : ∀ (rest : List Operation) (l : Locator) (picks : Picks), (∀ op ∈ rest, op ∈ ops) → l.document = d →
      l.config = config → P l picks → P (l.run rest) (rest.foldl (Picks.after d) picks) := by
    intro rest
    induction rest with
    | nil => exact fun l picks _ _ _ hl => hl
    | cons op rest ih =>
      intro l picks hmem hdocument hconfig hl
      refine ih (l.step op) (picks.after d op) (fun o ho => hmem o (List.mem_cons_of_mem op ho))
        ((document_step l op).trans hdocument) ((config_step l op).trans hconfig) ?_
      refine step l picks op _ _ (hmem op List.mem_cons_self) hdocument hconfig hl ?_
      rw [← hdocument]
      exact effect_step l picks op
  exact hrun ops _ {} (fun _ hop => hop) rfl rfl start

/-- A run keeps the document and the settings. -/
theorem document_run (d : Document) (config : Config) (ops : List Operation) :
    ((start d config).run ops).document = d ∧ ((start d config).run ops).config = config := by
  refine run_induction (P := fun l _ => l.document = d ∧ l.config = config) ops ⟨rfl, rfl⟩ ?_
  intro l picks op l' picks' _ hdocument hconfig _ heffect
  cases heffect <;> exact ⟨hdocument, hconfig⟩

end ElementLocator.Locator
