import ElementLocator.Proofs.Document.ElementsAbove
import ElementLocator.Proofs.Locator.Coherence

/-!
# The anchor of two picks

The registry decides where a relative branch ends: the walk up from the picked node stops at the first node whose
handle is on the main chain. Told by the tree alone, that node is the lowest one on the chains of both picks, and the
branch is the part of the relative chain below it. Since only the two chains matter, the other order of the picks
gives the same anchor. An element above the document node is on no chain, so it is not an anchor even if it is above
both picks.
-/

namespace ElementLocator

namespace Document

variable {d : Document} {m n p r a : NodeId}

/-! ### The lowest node on two chains -/

/-- The node is on both chains, and every other node on both is above it. -/
def LowestOnBoth (d : Document) (p r a : NodeId) : Prop :=
  d.OnChain p a ∧ d.OnChain r a ∧ ∀ b, d.OnChain p b → d.OnChain r b → b = a ∨ d.Above b a

/-- The two chains play the same part. -/
theorem lowestOnBoth_comm : d.LowestOnBoth p r a ↔ d.LowestOnBoth r p a := by
  unfold LowestOnBoth
  exact ⟨fun ⟨hp, hr, hlow⟩ => ⟨hr, hp, fun b hbr hbp => hlow b hbp hbr⟩,
    fun ⟨hr, hp, hlow⟩ => ⟨hp, hr, fun b hbp hbr => hlow b hbr hbp⟩⟩

namespace Sound

/-- In a chain, what comes later is above what comes earlier. -/
theorem chainBelowTop_pairwise (h : d.Sound) (n : NodeId) :
    (d.chainBelowTop n).Pairwise fun lower upper => d.Above upper lower := by
  have : Trans (fun lower upper => d.Above upper lower) (fun lower upper => d.Above upper lower)
    fun lower upper => d.Above upper lower := ⟨Relation.TransGen.trans⟩
  exact ((h.chainBelowTop_isChain n).imp fun _ _ hp => .single (parentElement?_eq_some_iff.1 hp).1).pairwise

/-! ### Cutting a list that climbs -/

/-- What is below a node is neither that node nor above it. -/
theorem not_above_of_above (h : d.Sound) (habove : d.Above a m) : ¬(m = a ∨ d.Above m a) := by
  rintro (rfl | hback)
  · exact h.wellFormed.not_above_self m habove
  · exact h.wellFormed.not_above_self a (hback.trans habove)

variable {front rest climbing : List NodeId}

/-- In a list that climbs, the members in front of one are those below it. -/
theorem mem_front_iff (h : d.Sound)
    (hclimbs : (front ++ a :: rest).Pairwise fun lower upper => d.Above upper lower) :
    m ∈ front ↔ m ∈ front ++ a :: rest ∧ d.Above a m := by
  obtain ⟨-, hrest, hfront⟩ := List.pairwise_append.1 hclimbs
  refine ⟨fun hm => ⟨List.mem_append_left _ hm, hfront m hm a List.mem_cons_self⟩, fun ⟨hm, habove⟩ => ?_⟩
  refine (List.mem_append.1 hm).resolve_right fun hm => h.not_above_of_above habove ?_
  exact (List.mem_cons.1 hm).imp_right (List.rel_of_pairwise_cons hrest)

/-- In a list that climbs, the first member with a property is the lowest one that has it. -/
theorem find?_eq_some_iff_lowest (h : d.Sound) {q : NodeId → Bool}
    (hclimbs : climbing.Pairwise fun lower upper => d.Above upper lower) :
    climbing.find? q = some a ↔
      q a = true ∧ a ∈ climbing ∧ ∀ b, q b = true → b ∈ climbing → b = a ∨ d.Above b a := by
  rw [List.find?_eq_some_iff_append]
  refine and_congr_right fun _ => ⟨?_, ?_⟩
  · rintro ⟨front, rest, rfl, hfront⟩
    refine ⟨List.mem_append_right front List.mem_cons_self, fun b hqb hb => ?_⟩
    rcases List.mem_append.1 hb with hb | hb
    · have hnot := hfront b hb
      simp [hqb] at hnot
    · exact (List.mem_cons.1 hb).imp_right (List.rel_of_pairwise_cons (List.pairwise_append.1 hclimbs).2.1)
  · rintro ⟨hmem, hlow⟩
    obtain ⟨front, rest, rfl⟩ := List.append_of_mem hmem
    refine ⟨front, rest, rfl, fun b hb => ?_⟩
    obtain ⟨hb, habove⟩ := (h.mem_front_iff hclimbs).1 hb
    simpa using fun hqb => h.not_above_of_above habove (hlow b hqb hb)

/-- In a list that climbs, the members in front of the first one with a property are those below it. -/
theorem mem_takeWhile_iff_below (h : d.Sound) {q : NodeId → Bool}
    (hclimbs : climbing.Pairwise fun lower upper => d.Above upper lower) (ha : climbing.find? q = some a) :
    m ∈ climbing.takeWhile (fun b => !q b) ↔ m ∈ climbing ∧ d.Above a m := by
  obtain ⟨hqa, front, rest, rfl, hfront⟩ := List.find?_eq_some_iff_append.1 ha
  rw [List.takeWhile_append_of_pos hfront, List.takeWhile_cons_of_neg (by simp [hqa]), List.append_nil]
  exact h.mem_front_iff hclimbs

end Sound

end Document

namespace Locator

/-! ### What the branch and its anchor are -/

variable {d : Document} {p r : NodeId} {l : Locator} {picks : Picks}

/-- The main chain is the chain of the one node, the anchor is the lowest node on both chains, and the branch is the
part of the other node's chain below the anchor, or all of that chain if there is no anchor. The branch runs down from
parent to child, and nothing of it is on the main chain. -/
structure Joined (l : Locator) (p r : NodeId) : Prop where
  main : ∀ m, m ∈ l.nodesOf l.main ↔ l.document.OnChain p m
  common : l.hasCommonAncestor = true ↔ ∃ m, l.document.OnChain p m ∧ l.document.OnChain r m
  anchored : l.hasCommonAncestor = l.anchor?.isSome
  anchor : ∀ a, l.anchor? = some a ↔ l.document.LowestOnBoth p r a
  below : ∀ a, l.anchor? = some a →
    ∀ m, m ∈ l.nodesOf (l.handles .relative) ↔ l.document.OnChain r m ∧ l.document.Above a m
  whole : l.hasCommonAncestor = false → ∀ m, m ∈ l.nodesOf (l.handles .relative) ↔ l.document.OnChain r m
  empty : l.handles .relative = [] ↔ l.document.OnChain p r
  own : (l.nodesOf l.main).Disjoint (l.nodesOf (l.handles .relative))
  linked : (l.nodesOf (l.handles .relative)).IsChain fun upper lower => l.document.parent? lower = some upper
  resolved : (l.nodesOf (l.handles .relative)).length = (l.handles .relative).length

/-- The chain that the picks have in a scope is the one of the node picked there. -/
theorem Picks.mem_chain_iff (hd : d.Sound) (hnest : d.ElementsNest) (hvalid : picks.Valid d) {scope : Scope}
    {n m : NodeId} (hn : picks.of scope = some n) : m ∈ picks.chain d scope ↔ d.OnChain n m := by
  obtain ⟨helement, htop, hattached⟩ := validatePick_eq_ok.1 (hvalid scope n hn)
  rw [chain, hn]
  exact hd.mem_chainBelowTop_iff hnest helement (Document.Sound.isAttached_iff.1 hattached) htop

/-- In the chain of a scope, what comes later is above what comes earlier. -/
theorem Picks.chain_pairwise (hd : d.Sound) (picks : Picks) (scope : Scope) :
    (picks.chain d scope).Pairwise fun lower upper => d.Above upper lower := by
  unfold chain
  split
  · exact List.Pairwise.nil
  · exact hd.chainBelowTop_pairwise _

namespace Layout

/-- There is a common ancestor exactly if there is an anchor. -/
theorem hasCommonAncestor_eq (h : Layout d l picks) : l.hasCommonAncestor = l.anchor?.isSome := by
  rw [hasCommonAncestor, h.shared_eq, h.anchor?_eq, Option.isSome_map]

/-- The branch is empty exactly if the relative pick is on the main chain. -/
theorem handles_relative_eq_nil_iff (h : Layout d l picks) (hr : picks.relative = some r) :
    l.handles .relative = [] ↔ r ∈ picks.chain d .main := by
  obtain ⟨rest, hchain⟩ : ∃ rest, picks.chain d .relative = r :: rest :=
    List.head?_eq_some_iff.1 ((Picks.head?_chain h.valid .relative).trans hr)
  rw [h.handles_relative, List.reverse_eq_nil_iff, List.range'_eq_nil_iff, List.length_eq_zero_iff, Picks.ownNodes,
    hchain, List.takeWhile_cons]
  split <;> simp_all

/-- The nodes of the branch are the lower part of the relative path. -/
theorem nodesOf_relative_isSuffix (l : Locator) :
    l.nodesOf (l.handles .relative) <:+ l.nodesOf (l.path .relative) := by
  rw [path_relative, nodesOf, nodesOf, List.filterMap_append]
  exact List.suffix_append _ _

/-- The layout of two picks joins their chains. Without a shared handle, the path of the branch is its whole chain. -/
theorem joined (h : Layout d l picks) (hd : d.Sound) (hnest : d.ElementsNest) (hp : picks.main = some p)
    (hr : picks.relative = some r) : Joined l p r := by
  have hmain : ∀ m, m ∈ picks.chain d .main ↔ d.OnChain p m := fun m => Picks.mem_chain_iff hd hnest h.valid hp
  have hrelative : ∀ m, m ∈ picks.chain d .relative ↔ d.OnChain r m := fun m =>
    Picks.mem_chain_iff hd hnest h.valid hr
  have hclimbs := Picks.chain_pairwise hd picks .relative
  obtain rfl := h.document
  constructor
  case main =>
    intro m
    rw [h.nodesOf_main, List.mem_reverse, hmain]
  case common =>
    rw [h.hasCommonAncestor_eq, h.anchor?_eq, Picks.sharedNode?, List.find?_isSome]
    simp [hmain, hrelative, and_comm]
  case anchored => exact h.hasCommonAncestor_eq
  case anchor =>
    intro a
    rw [h.anchor?_eq, Picks.sharedNode?, hd.find?_eq_some_iff_lowest hclimbs]
    simp only [decide_eq_true_eq, hmain, hrelative]
    rfl
  case below =>
    intro a ha m
    rw [h.anchor?_eq] at ha
    rw [h.nodesOf_relative, List.mem_reverse, Picks.ownNodes, hd.mem_takeWhile_iff_below hclimbs ha, hrelative]
  case whole =>
    intro hcommon m
    have hnone : l.branch.bind Branch.shared = none := by simpa [hasCommonAncestor] using hcommon
    have hnodes : l.nodesOf (l.path .relative) = _ := h.nodesOf_path_of_not_shared fun _ => hnone
    rw [path_relative, hnone, Option.toList_none, List.nil_append] at hnodes
    rw [hnodes, List.mem_reverse, hrelative]
  case empty => rw [h.handles_relative_eq_nil_iff hr, hmain]
  case own => exact (h.coherent hd).nodes_disjoint
  case linked =>
    have hlinked := (h.linked hd .relative).suffix (nodesOf_relative_isSuffix l)
    exact hlinked.imp fun _ _ hparent => (Document.parentElement?_eq_some_iff.1 hparent).1
  case resolved =>
    rw [h.nodesOf_relative, h.handles_relative, List.length_reverse, List.length_reverse, List.length_range']

end Layout

/-! ### Runs with two picks -/

/-- Among the operations are a pick of the one node as the main one and, behind it, a pick of the other as the relative
one. No other main node is accepted between the two, and no other node at all behind both. -/
def PicksInTurn (d : Document) (p r : NodeId) (ops : List Operation) : Prop :=
  ∃ before between after, ops = before ++ .pickMain p :: (between ++ .pickRelative r :: after) ∧
    (∀ n, .pickMain n ∈ between → validatePick d n ≠ .ok ()) ∧
    ∀ scope n, .pick scope n ∈ after → validatePick d n ≠ .ok ()

namespace Picks

/-- An accepted main pick forgets all earlier picks, and an accepted relative pick takes the place of the earlier one. -/
theorem after_of_accepted {n : NodeId} (hn : validatePick d n = .ok ()) (picks : Picks) :
    picks.after d (.pickMain n) = { main := some n } ∧
      picks.after d (.pickRelative n) = { picks with relative := some n } := by
  simp [after, hn, Except.isOk, Except.toBool]

/-- A refused pick changes nothing. -/
theorem after_of_refused {n : NodeId} (hn : validatePick d n ≠ .ok ()) (picks : Picks) (scope : Scope) :
    picks.after d (.pick scope n) = picks := by
  cases hvalid : validatePick d n with
  | ok => exact absurd hvalid hn
  | error => cases scope <;> simp [Operation.pick, after, hvalid, Except.isOk, Except.toBool]

/-- Only an accepted main pick changes what is picked as the main node. -/
theorem main_after {op : Operation} (hop : ∀ n, op = .pickMain n → validatePick d n ≠ .ok ()) (picks : Picks) :
    (picks.after d op).main = picks.main := by
  cases op with
  | pickMain n => rw [show Operation.pickMain n = .pick .main n from rfl, after_of_refused (hop n rfl)]
  | pickRelative n =>
    rw [after]
    split <;> rfl
  | _ => rfl

/-- Only an accepted pick changes what is picked. -/
theorem after_eq_self {op : Operation} (hop : ∀ scope n, op = .pick scope n → validatePick d n ≠ .ok ())
    (picks : Picks) : picks.after d op = picks := by
  cases op with
  | pickMain n => exact after_of_refused (hop .main n rfl) picks .main
  | pickRelative n => exact after_of_refused (hop .relative n rfl) picks .relative
  | _ => rfl

/-- As long as no pick of the main element is accepted, the main pick stays. -/
theorem main_foldl_after {ops : List Operation} (hops : ∀ n, .pickMain n ∈ ops → validatePick d n ≠ .ok ())
    (picks : Picks) : (ops.foldl (after d) picks).main = picks.main := by
  induction ops generalizing picks with
  | nil => rfl
  | cons op rest ih =>
    rw [List.foldl_cons, ih fun n hn => hops n (List.mem_cons_of_mem op hn)]
    exact main_after (fun n heq => hops n (heq ▸ List.mem_cons_self)) picks

/-- As long as no pick is accepted, all picks stay. -/
theorem foldl_after_eq_self {ops : List Operation}
    (hops : ∀ scope n, .pick scope n ∈ ops → validatePick d n ≠ .ok ()) (picks : Picks) :
    ops.foldl (after d) picks = picks := by
  induction ops with
  | nil => rfl
  | cons op rest ih =>
    rw [List.foldl_cons, after_eq_self fun scope n heq => hops scope n (heq ▸ List.mem_cons_self)]
    exact ih fun scope n hn => hops scope n (List.mem_cons_of_mem op hn)

/-- A run that picks two nodes in turn remembers these two. -/
theorem ofRun_of_picksInTurn {ops : List Operation} (hp : validatePick d p = .ok ()) (hr : validatePick d r = .ok ())
    (h : PicksInTurn d p r ops) : ofRun d ops = { main := some p, relative := some r } := by
  obtain ⟨before, between, after, rfl, hbetween, hafter⟩ := h
  rw [ofRun, List.foldl_append, List.foldl_cons, (after_of_accepted hp _).1, List.foldl_append, List.foldl_cons,
    (after_of_accepted hr _).2, main_foldl_after hbetween, foldl_after_eq_self hafter]

end Picks

/-- Where only elements nest, picking two nodes in turn, with whatever else is done around the picks, cuts the chain of
the second node at the lowest node that it shares with the chain of the first, and picking them in the other order has
the same anchor. Where the document node has no parent, the chain of a node holds every element above it, other than
the document element. -/
theorem nearest_common_anchor (hd : d.Built) (hnest : d.ElementsNest) (hp : validatePick d p = .ok ())
    (hr : validatePick d r = .ok ()) :
    (∀ config ops, PicksInTurn d p r ops → Joined ((start d config).run ops) p r) ∧
      (∀ config config' ops ops', PicksInTurn d p r ops → PicksInTurn d r p ops' →
        ((start d config).run ops).anchor? = ((start d config').run ops').anchor?) ∧
      (d.parent? Document.root = none → ∀ n m, d.isAttached n = true →
        (d.OnChain n m ↔ m = n ∨ d.isElement m = true ∧ d.documentElement? ≠ some m ∧ d.Above m n)) := by
  have hjoined : ∀ {p r}, validatePick d p = .ok () → validatePick d r = .ok () → ∀ config ops,
      PicksInTurn d p r ops → Joined ((start d config).run ops) p r := by
    intro p r hp hr config ops hops
    have hpicks := Picks.ofRun_of_picksInTurn hp hr hops
    exact (layout_run hd.sound config ops).joined hd.sound hnest (by rw [hpicks]) (by rw [hpicks])
  refine ⟨hjoined hp hr, fun config config' ops ops' hops hops' => Option.ext fun a => ?_,
    fun hroot n m hn => hd.sound.onChain_iff_above hroot hn⟩
  rw [(hjoined hp hr config ops hops).anchor, (hjoined hr hp config' ops' hops').anchor, (document_run d config ops).1,
    (document_run d config' ops').1]
  exact Document.lowestOnBoth_comm

/-- On the page, the two paragraphs are picked in either order, with refinements, refused and earlier picks around. -/
theorem nearest_common_anchor_page :
    let ops := [.pickRelative 6, .pickMain 5, .pickRelative 6, .toggle .main 2 "title" "it's" true, .pickMain 1,
      .pickRelative 4, .setUseXPath true]
    let ops' := [.pickMain 6, .pickMain 4, .toggle .main 1 "class" "card" true, .pickRelative 5, .pickRelative 0]
    Joined ((start page {}).run ops) 5 4 ∧
      ((start page {}).run ops).anchor? = ((start page {}).run ops').anchor? ∧
        ((start page {}).run ops).anchor? = some 3 := by
  intro ops ops'
  have hturn : PicksInTurn page 5 4 ops := by
    refine ⟨[.pickRelative 6], [.pickRelative 6, .toggle .main 2 "title" "it's" true, .pickMain 1],
      [.setUseXPath true], rfl, fun n hn => ?_, fun scope n hn => ?_⟩
    · obtain rfl : n = 1 := by simpa using hn
      decide
    · cases scope <;> simp [Operation.pick] at hn
  have hturn' : PicksInTurn page 4 5 ops' := by
    refine ⟨[.pickMain 6], [.toggle .main 1 "class" "card" true], [.pickRelative 0], rfl, fun n hn => ?_,
      fun scope n hn => ?_⟩
    · simp at hn
    · obtain rfl : n = 0 := by cases scope <;> simp_all [Operation.pick]
      decide
  have hnest : page.ElementsNest := by decide
  obtain ⟨hjoined, hswap, -⟩ := nearest_common_anchor built_page hnest (p := 5) (r := 4) (by decide) (by decide)
  exact ⟨hjoined {} ops hturn, hswap {} {} ops ops' hturn hturn', by decide⟩

/-- Two paragraphs beside the document element of a document whose document node was appended to a section. -/
def sunk : Document :=
  Document.empty.edits
    [.element "main", .append 0 1, .element "p", .append 0 2, .element "p", .append 0 3, .element "section", .append 4 0]

/-- The section is an element above both paragraphs, but it is above the document node too, where chains end, so the
paragraphs have no common ancestor. -/
theorem hasCommonAncestor_eq_false_sunk :
    sunk.Built ∧ sunk.ElementsNest ∧ validatePick sunk 2 = .ok () ∧ validatePick sunk 3 = .ok () ∧
      sunk.isElement 4 = true ∧ sunk.documentElement? ≠ some 4 ∧ sunk.Above 4 2 ∧ sunk.Above 4 3 ∧
      PicksInTurn sunk 2 3 [.pickMain 2, .pickRelative 3] ∧
      ((start sunk {}).run [.pickMain 2, .pickRelative 3]).hasCommonAncestor = false := by
  have habove : ∀ n, sunk.parent? n = some 0 → sunk.Above 4 n := fun n hn => .head hn (.single rfl)
  have hturn : PicksInTurn sunk 2 3 [.pickMain 2, .pickRelative 3] :=
    ⟨[], [], [], rfl, nofun, fun _ _ hmem => nomatch hmem⟩
  exact ⟨Document.built_edits (by decide), by decide, by decide, by decide, by decide, by decide, habove 2 rfl,
    habove 3 rfl, hturn, by decide⟩

end Locator

end ElementLocator
