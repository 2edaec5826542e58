import ElementLocator.Locator.Picking
import ElementLocator.Proofs.Forest.Moves
import ElementLocator.Proofs.Locator.Forgetting

/-!
# Runs of clicks

A locator whose picks come from clicks only, with requests for picks, refinements and changes of grammar in any order
between them. Every event does at most one operation on the locator, so such a run is a run of the locator, and its
picks are all of nodes outside the host. Chains lead upwards, so they cannot enter the subtree of the host from outside.
-/

namespace ElementLocator.Locator

/-- What happens to a locator whose picks come from clicks. -/
inductive Event where
  | ask (scope : Scope)
  | stop
  | click (n : NodeId)
  | toggle (scope : Scope) (index : Nat) (name value : String) (included : Bool)
  | setGrammar (grammar : Grammar)
  | setUseXPath (useXPath : Bool)
  deriving Repr, DecidableEq

/-- The scope for which an event asks for a pick. -/
def Event.asked? : Event → Option Scope
  | .ask scope => some scope
  | _ => none

/-- The scope of a pick. -/
def Operation.pickedScope? : Operation → Option Scope
  | .pickMain _ => some .main
  | .pickRelative _ => some .relative
  | _ => none

@[simp] theorem Operation.pickedScope?_pick (scope : Scope) (n : NodeId) :
    (Operation.pick scope n).pickedScope? = some scope := by
  cases scope <;> rfl

/-- A locator with what is being picked for it. -/
structure Session where
  picking : Picking
  locator : Locator

namespace Session

/-- Nothing is picked or asked for yet, and clicks inside the host do not count. -/
def start (d : Document) (config : Config) (host : NodeId) : Session where
  picking := { host := some host }
  locator := Locator.start d config

/-- The session after an event. -/
def step (s : Session) : Event → Session
  | .ask scope => { s with picking := s.picking.ask scope }
  | .stop => { s with picking := s.picking.stop }
  | .click n =>
    let (_, locator, picking) := s.picking.click s.locator n
    { picking, locator }
  | .toggle scope index name value included =>
    { s with locator := s.locator.step (.toggle scope index name value included) }
  | .setGrammar grammar => { s with locator := s.locator.setGrammar grammar }
  | .setUseXPath useXPath => { s with locator := s.locator.setUseXPath useXPath }

/-- The session after events. -/
def run (s : Session) (events : List Event) : Session := events.foldl step s

/-- The operation on the locator that an event attempts. -/
def operation? (s : Session) : Event → Option Operation
  | .ask _ => none
  | .stop => none
  | .click n => s.picking.pending.bind fun scope =>
    if s.picking.host.any (s.locator.document.contains · n) then none else some (.pick scope n)
  | .toggle scope index name value included => some (.toggle scope index name value included)
  | .setGrammar grammar => some (.setGrammar grammar)
  | .setUseXPath useXPath => some (.setUseXPath useXPath)

/-- The operations on the locator that events attempt one after the other. -/
def operations (s : Session) : List Event → List Operation
  | [] => []
  | event :: rest => (s.operation? event).toList ++ (s.step event).operations rest

end Session

variable {d : Document} {host n : NodeId} {s : Session} {scope : Scope} {event : Event}

/-- The node is the host or lies below it. -/
def Within (d : Document) (host n : NodeId) : Prop := host = n ∨ d.nodes.Above host n

/-- The session belongs to a document and a host. -/
structure Session.Hosted (d : Document) (host : NodeId) (s : Session) : Prop where
  document : s.locator.document = d
  host : s.picking.host = some host

/-! ### One event -/

/-- A click is ignored, or it is an attempt of the pick that is asked for. -/
theorem Session.ignored_or_attempted (d : Document) (host n : NodeId) (s : Session) :
    (s.picking.pending = none ∨ Within d host n) ∨
      ∃ scope, s.picking.pending = some scope ∧ ¬Within d host n := by
  by_cases hn : Within d host n
  · exact .inl (.inr hn)
  · cases hpending : s.picking.pending with
    | none => exact .inl (.inl rfl)
    | some scope => exact .inr ⟨scope, rfl, hn⟩

namespace Session.Hosted

/-- The test for clicks inside the host finds out the nodes within it. -/
theorem any_contains_iff (hs : Hosted d host s) (hd : d.Sound) :
    s.picking.host.any (s.locator.document.contains · n) = true ↔ Within d host n := by
  rw [hs.host, hs.document, Option.any_some, Document.contains, Forest.WellFormed.contains_iff]
  exact hd.wellFormed.mem_lineage_iff_above

/-- A click changes nothing while no pick is asked for, and inside the host. -/
theorem click_of_ignored (hs : Hosted d host s) (hd : d.Sound)
    (hignored : s.picking.pending = none ∨ Within d host n) :
    ∃ outcome, s.picking.click s.locator n = (.ok outcome, s.locator, s.picking) := by
  unfold Picking.click
  cases hpending : s.picking.pending with
  | none => exact ⟨.notPicking, rfl⟩
  | some scope =>
    rw [hpending] at hignored
    have hinside := (hs.any_contains_iff hd).2 (hignored.resolve_left nofun)
    exact ⟨.insideHost, if_pos hinside⟩

/-- A click that is ignored changes nothing. -/
theorem step_click_of_ignored (hs : Hosted d host s) (hd : d.Sound)
    (hignored : s.picking.pending = none ∨ Within d host n) : s.step (.click n) = s := by
  obtain ⟨outcome, hclick⟩ := hs.click_of_ignored hd hignored
  rw [step, hclick]

/-- A click outside the host is an attempt of the pick that is asked for, and uses up the request. -/
theorem click_of_attempted (hs : Hosted d host s) (hd : d.Sound) (hpending : s.picking.pending = some scope)
    (hn : ¬Within d host n) : s.picking.click s.locator n =
      ((s.locator.pick scope n).map fun _ => .picked scope, s.locator.step (.pick scope n), s.picking.stop) := by
  unfold Picking.click
  rw [hpending]
  dsimp only
  rw [if_neg fun h => hn ((hs.any_contains_iff hd).1 h), Locator.step, perform_pick]
  cases s.locator.pick scope n <;> rfl

/-- A click that is not ignored ends the picking and picks its node for the pending scope. -/
theorem step_click_of_attempted (hs : Hosted d host s) (hd : d.Sound) (hpending : s.picking.pending = some scope)
    (hn : ¬Within d host n) : s.step (.click n) = ⟨s.picking.stop, s.locator.step (.pick scope n)⟩ := by
  rw [step, hs.click_of_attempted hd hpending hn]

/-- A click that is ignored stands for no operation. -/
theorem operation?_click_of_ignored (hs : Hosted d host s) (hd : d.Sound)
    (hignored : s.picking.pending = none ∨ Within d host n) : s.operation? (.click n) = none := by
  rw [operation?]
  cases hpending : s.picking.pending with
  | none => rfl
  | some scope =>
    rw [hpending] at hignored
    rw [Option.bind_some, if_pos ((hs.any_contains_iff hd).2 (hignored.resolve_left nofun))]

/-- A click that is not ignored stands for a pick. -/
theorem operation?_click_of_attempted (hs : Hosted d host s) (hd : d.Sound)
    (hpending : s.picking.pending = some scope) (hn : ¬Within d host n) :
    s.operation? (.click n) = some (.pick scope n) := by
  rw [operation?, hpending, Option.bind_some, if_neg fun h => hn ((hs.any_contains_iff hd).1 h)]

/-- An event does to the locator what its operation does. -/
theorem locator_step (hs : Hosted d host s) (hd : d.Sound) (event : Event) :
    (s.step event).locator = s.locator.run (s.operation? event).toList := by
  cases event with
  | click n =>
    rcases ignored_or_attempted d host n s with hignored | ⟨scope, hpending, hn⟩
    · rw [hs.operation?_click_of_ignored hd hignored, hs.step_click_of_ignored hd hignored]
      rfl
    · rw [hs.operation?_click_of_attempted hd hpending hn, hs.step_click_of_attempted hd hpending hn]
      rfl
  | ask scope => rfl
  | stop => rfl
  | toggle scope index name value included => rfl
  | setGrammar grammar => rfl
  | setUseXPath useXPath => rfl

end Session.Hosted

/-! ### Requests -/

/-- An event that leaves a request as it is. -/
def Event.LeavesRequest (d : Document) (host : NodeId) : Event → Prop
  | .ask _ => False
  | .stop => False
  | .click n => Within d host n
  | .toggle _ _ _ _ _ => True
  | .setGrammar _ => True
  | .setUseXPath _ => True

/-- After an event a pick is asked for if the event asks for it, or if it was asked for and the event leaves that. -/
theorem Session.Hosted.pending_step (hs : Hosted d host s) (hd : d.Sound) (event : Event) :
    (s.step event).picking.pending = some scope ↔
      event = .ask scope ∨ event.LeavesRequest d host ∧ s.picking.pending = some scope := by
  cases event with
  | ask other =>
    have hstep : (s.step (.ask other)).picking.pending = some other := rfl
    simp [hstep, Event.LeavesRequest]
  | stop =>
    have hstep : (s.step .stop).picking.pending = none := rfl
    simp [hstep, Event.LeavesRequest]
  | click n =>
    rcases ignored_or_attempted d host n s with hignored | ⟨other, hpending, hn⟩
    · rw [hs.step_click_of_ignored hd hignored]
      simp only [reduceCtorEq, false_or, Event.LeavesRequest, iff_and_self]
      intro hpending
      exact hignored.resolve_left fun hnone => by simp [hnone] at hpending
    · have hstop : (s.step (.click n)).picking.pending = none := by
        rw [hs.step_click_of_attempted hd hpending hn]
        rfl
      simp [hstop, Event.LeavesRequest, hn]
  | toggle scope index name value included => simp [step, Event.LeavesRequest]
  | setGrammar grammar => simp [step, Event.LeavesRequest]
  | setUseXPath useXPath => simp [step, Event.LeavesRequest]

namespace Session

/-- A session is hosted from its start. -/
theorem hosted_start (d : Document) (config : Config) (host : NodeId) : Hosted d host (start d config host) :=
  ⟨rfl, rfl⟩

/-- Every event leaves the session hosted. -/
theorem Hosted.step (hs : Hosted d host s) (hd : d.Sound) (event : Event) : Hosted d host (s.step event) := by
  constructor
  · rw [hs.locator_step hd, ← hs.document]
    cases s.operation? event with
    | none => rfl
    | some op => exact document_step s.locator op
  · cases event with
    | click n =>
      rcases ignored_or_attempted d host n s with hignored | ⟨scope, hpending, hn⟩
      · rw [hs.step_click_of_ignored hd hignored]
        exact hs.host
      · rw [hs.step_click_of_attempted hd hpending hn]
        exact hs.host
    | ask scope => exact hs.host
    | stop => exact hs.host
    | toggle scope index name value included => exact hs.host
    | setGrammar grammar => exact hs.host
    | setUseXPath useXPath => exact hs.host

/-- A session stays hosted through every run. -/
theorem Hosted.run (hs : Hosted d host s) (hd : d.Sound) (events : List Event) : Hosted d host (s.run events) := by
  induction events generalizing s with
  | nil => exact hs
  | cons event rest ih => exact ih (hs.step hd event)

/-- A pick is asked for after events exactly if one of them asked for it and all later ones left it. -/
theorem pending_run (hd : d.Sound) (config : Config) (events : List Event) :
    ((start d config host).run events).picking.pending = some scope ↔
      ∃ before after, events = before ++ .ask scope :: after ∧ ∀ event ∈ after, event.LeavesRequest d host := by
  induction events using List.reverseRecOn with
  | nil => simp [run, start]
  | append_singleton events event ih =>
    have hs := (hosted_start d config host).run hd events
    rw [run, List.foldl_concat, ← run, hs.pending_step hd, ih]
    constructor
    · rintro (rfl | ⟨hevent, before, after, rfl, hafter⟩)
      · exact ⟨events, [], rfl, nofun⟩
      · refine ⟨before, after ++ [event], by simp, fun e he => ?_⟩
        rcases List.mem_append.1 he with he | he
        · exact hafter e he
        · exact List.mem_singleton.1 he ▸ hevent
    · rintro ⟨before, after, heq, hafter⟩
      rcases List.eq_nil_or_concat after with rfl | ⟨front, last, rfl⟩
      · exact .inl (by simpa using (List.append_inj' heq rfl).2)
      · rw [List.concat_eq_append] at heq hafter
        rw [← List.cons_append, ← List.append_assoc] at heq
        obtain ⟨hevents, hlast⟩ := List.append_inj' heq rfl
        obtain rfl : event = last := by simpa using hlast
        exact .inr ⟨hafter event (by simp), before, front, hevents, fun e he => hafter e (by simp [he])⟩

/-! ### Attempts -/

/-- The scopes of the attempted picks are in turn some of the scopes that picks are asked for, or the one asked for
before. -/
theorem Hosted.attempts_sublist (hs : Hosted d host s) (hd : d.Sound) (events : List Event) :
    ((s.operations events).filterMap Operation.pickedScope?).Sublist
      (s.picking.pending.toList ++ events.filterMap Event.asked?) := by
  induction events generalizing s with
  | nil => simp [operations]
  | cons event rest ih =>
    have hrest := ih (hs.step hd event)
    rw [operations, List.filterMap_append]
    cases event with
    | click n =>
      rcases ignored_or_attempted d host n s with hignored | ⟨scope, hpending, hn⟩
      · rw [hs.step_click_of_ignored hd hignored] at hrest ⊢
        rw [hs.operation?_click_of_ignored hd hignored]
        exact hrest
      · rw [hs.step_click_of_attempted hd hpending hn] at hrest ⊢
        have hscope : (some (Operation.pick scope n)).toList.filterMap Operation.pickedScope? = [scope] := by simp
        rw [hs.operation?_click_of_attempted hd hpending hn, hpending, hscope]
        exact hrest.cons_cons scope
    | ask scope => exact hrest.trans (List.sublist_append_right _ _)
    | stop => exact hrest.trans (List.sublist_append_right _ _)
    | toggle scope index name value included => exact hrest
    | setGrammar grammar => exact hrest
    | setUseXPath useXPath => exact hrest

/-- The nodes of the attempted picks lie outside the host. -/
theorem Hosted.not_within_of_mem (hs : Hosted d host s) (hd : d.Sound) {events : List Event}
    (hmem : .pick scope n ∈ s.operations events) : ¬Within d host n := by
  induction events generalizing s with
  | nil => cases hmem
  | cons event rest ih =>
    rw [operations, List.mem_append, Option.mem_toList] at hmem
    refine hmem.elim (fun hop => ?_) (ih (hs.step hd event))
    cases event with
    | click m =>
      rcases ignored_or_attempted d host m s with hignored | ⟨other, hpending, hm⟩
      · rw [hs.operation?_click_of_ignored hd hignored] at hop
        cases hop
      · rw [hs.operation?_click_of_attempted hd hpending hm, Option.some.injEq] at hop
        cases other <;> cases scope <;> cases hop <;> exact hm
    | ask other => cases hop
    | stop => cases hop
    | toggle other index name value included => cases scope <;> cases hop
    | setGrammar grammar => cases scope <;> cases hop
    | setUseXPath useXPath => cases scope <;> cases hop

/-- The locator after events is the one after the operations that they attempt. -/
theorem Hosted.locator_run (hs : Hosted d host s) (hd : d.Sound) (events : List Event) :
    (s.run events).locator = s.locator.run (s.operations events) := by
  induction events generalizing s with
  | nil => rfl
  | cons event rest ih =>
    rw [operations, Locator.run, List.foldl_append, ← Locator.run, ← Locator.run, ← hs.locator_step hd]
    exact ih (hs.step hd event)

end Session

/-! ### What is picked -/

/-- A pick after an operation is the pick of this operation or an earlier one. -/
theorem Picks.of_after {picks : Picks} {op : Operation} (h : (picks.after d op).of scope = some n) :
    op = .pick scope n ∨ picks.of scope = some n := by
  cases op with
  | pickMain m =>
    rw [after] at h
    split at h
    · cases scope with
      | main =>
        cases h
        exact .inl rfl
      | relative => cases h
    · exact .inr h
  | pickRelative m =>
    rw [after] at h
    split at h
    · cases scope with
      | main => exact .inr h
      | relative =>
        cases h
        exact .inl rfl
    · exact .inr h
  | toggle _ _ _ _ _ => exact .inr h
  | setGrammar _ => exact .inr h
  | setUseXPath _ => exact .inr h

/-- What is picked was picked by one of the operations. -/
theorem Picks.pick_mem_of_ofRun {ops : List Operation} (h : (ofRun d ops).of scope = some n) :
    .pick scope n ∈ ops := by
  induction ops using List.reverseRecOn with
  | nil => cases scope <;> cases h
  | append_singleton ops op ih =>
    rw [ofRun, List.foldl_concat, ← ofRun] at h
    rw [List.mem_append, List.mem_singleton]
    rcases of_after h with rfl | hof
    · exact .inr rfl
    · exact .inl (ih hof)

/-- The chain of a node outside the host stays outside. -/
theorem Picks.not_within_of_mem_chain (hd : d.Sound) {picks : Picks}
    (hpicks : ∀ scope n, picks.of scope = some n → ¬Within d host n) {m : NodeId} (hm : m ∈ picks.chain d scope) :
    ¬Within d host m := by
  unfold chain at hm
  split at hm
  · cases hm
  · next leaf hleaf =>
    intro hwithin
    have hhost := hd.wellFormed.mem_lineage_iff_above.2 hwithin
    have hlineage := (Document.Sound.chainBelowTop_sublist d leaf).subset hm
    have hleafWithin := hd.wellFormed.mem_lineage_iff_above.1 (hd.wellFormed.mem_lineage_trans hhost hlineage)
    exact hpicks scope leaf hleaf hleafWithin

/-- Nothing that a locator shows lies within the host. -/
structure Avoids (d : Document) (host : NodeId) (l : Locator) : Prop where
  entries : ∀ scope, ∀ entry ∈ l.entries scope, ¬Within d host entry.node
  leaf : ∀ scope n, l.leaf? scope = some n → ¬Within d host n
  anchor : ∀ a, l.anchor? = some a → ¬Within d host a

/-- Where no pick is within the host, the handles avoid the host. -/
theorem Layout.avoids {l : Locator} {picks : Picks} (h : Layout d l picks) (hd : d.Sound)
    (hpicks : ∀ scope n, picks.of scope = some n → ¬Within d host n) : Avoids d host l where
  entries scope entry hentry := by
    have hnode : entry.node ∈ l.nodesOf (l.handles scope) := by
      rw [← map_node_descriptorsOf, descriptorsOf_eq_map_entries, List.map_map]
      exact List.mem_map_of_mem (f := fun entry : Entry => entry.node) hentry
    have hpath : entry.node ∈ l.nodesOf (l.path scope) := by
      rw [nodesOf_path]
      exact List.mem_append_right _ hnode
    have hchain : entry.node ∈ picks.chain d scope :=
      (h.reverse_nodesOf_path_isPrefix scope).subset (List.mem_reverse.2 hpath)
    exact Picks.not_within_of_mem_chain hd hpicks hchain
  leaf scope n hn := hpicks scope n ((h.leaf?_eq scope).symm.trans hn)
  anchor a ha := Picks.not_within_of_mem_chain hd hpicks (Picks.sharedNode?_mem (h.anchor?_eq.symm.trans ha))

/-! ### Safety -/

/-- What can be relied on after events. Nothing shown lies within the host. A pick is asked for if the last event to
affect requests asked for it. The locator comes from the attempted operations, whose picks take requests one by one.
A click that is not asked for or within the host changes nothing; any other one attempts the pick and ends the
request; and a refused one leaves the locator as it was. -/
structure Safe (d : Document) (config : Config) (host : NodeId) (events : List Event) (s : Session) : Prop where
  avoids : Avoids d host s.locator
  pending : ∀ scope, s.picking.pending = some scope ↔
    ∃ before after, events = before ++ .ask scope :: after ∧ ∀ event ∈ after, event.LeavesRequest d host
  locator : s.locator = (start d config).run ((Session.start d config host).operations events)
  attempts : (((Session.start d config host).operations events).filterMap Operation.pickedScope?).Sublist
    (events.filterMap Event.asked?)
  ignored : ∀ n, s.picking.pending = none ∨ Within d host n →
    s.step (.click n) = s ∧ s.operation? (.click n) = none
  attempted : ∀ scope n, s.picking.pending = some scope → ¬Within d host n →
    s.operation? (.click n) = some (.pick scope n) ∧
      s.step (.click n) = ⟨s.picking.stop, s.locator.step (.pick scope n)⟩
  refused : ∀ n e, (s.picking.click s.locator n).1 = .error e →
    (s.step (.click n)).locator = s.locator ∧ (s.step (.click n)).picking.pending = none

/-- A click that is answered with an error was an attempt, and ends the request. -/
theorem Session.Hosted.step_click_of_refused (hs : Hosted d host s) (hd : d.Sound) {e : Error}
    (he : (s.picking.click s.locator n).1 = .error e) :
    (s.step (.click n)).locator = s.locator ∧ (s.step (.click n)).picking.pending = none := by
  rcases ignored_or_attempted d host n s with hignored | ⟨scope, hpending, hn⟩
  · obtain ⟨outcome, hclick⟩ := hs.click_of_ignored hd hignored
    rw [hclick] at he
    cases he
  · rw [hs.click_of_attempted hd hpending hn] at he
    rw [hs.step_click_of_attempted hd hpending hn]
    refine ⟨?_, rfl⟩
    cases hpick : s.locator.pick scope n with
    | ok l =>
      rw [hpick] at he
      cases he
    | error e' => exact step_of_error ((perform_pick _ _ _).trans hpick)

/-- Whatever is asked for, clicked, refined and rewritten, in any order, the host is left out and every request is used
up by one attempt at most. -/
theorem safe_run (hd : d.Built) (config : Config) (host : NodeId) (events : List Event) :
    Safe d config host events ((Session.start d config host).run events) := by
  have hs := Session.hosted_start d config host
  have hrun := hs.run hd.sound events
  have hlocator := hs.locator_run hd.sound events
  refine ⟨?_, fun scope => Session.pending_run hd.sound config events, hlocator, hs.attempts_sublist hd.sound events,
    fun n h => ⟨hrun.step_click_of_ignored hd.sound h, hrun.operation?_click_of_ignored hd.sound h⟩,
    fun scope n hpending hn => ⟨hrun.operation?_click_of_attempted hd.sound hpending hn,
      hrun.step_click_of_attempted hd.sound hpending hn⟩, fun n e => hrun.step_click_of_refused hd.sound⟩
  rw [hlocator]
  refine (layout_run hd.sound config _).avoids hd.sound fun scope n hn => ?_
  exact hs.not_within_of_mem hd.sound (Picks.pick_mem_of_ofRun hn)

/-- Clicks on a page whose second section is the host: a main pick with a click in the host before it and one too many
behind it, a refused relative pick, and a relative pick. -/
def pageClicks : List Event :=
  [.click 5, .ask .relative, .ask .main, .click 6, .toggle .main 0 "class" "card" true, .click 5, .click 4,
    .toggle .main 1 "class" "card" true, .ask .relative, .click 1, .click 4, .ask .relative, .setUseXPath true, .click 4,
    .ask .main]

/-- On the page, the click inside the host is ignored, and both leaves are the elements clicked outside of it. -/
theorem safe_run_page :
    let s := (Session.start page {} 6).run pageClicks
    s.locator.leaf? .main = some 5 ∧ s.locator.leaf? .relative = some 4 ∧ s.step (.click 6) = s ∧
      Safe page {} 6 pageClicks s := by
  have hsafe := safe_run built_page {} 6 pageClicks
  exact ⟨by decide, by decide, (hsafe.ignored 6 (.inr (.inl rfl))).1, hsafe⟩

end ElementLocator.Locator
