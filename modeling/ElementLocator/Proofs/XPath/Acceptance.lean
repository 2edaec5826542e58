import ElementLocator.Proofs.XPath.Reading

/-!
# What the readers accept

The readers accept exactly what the grammar derives, and answer with the tree of the derivation. From a derivation to
an answer each rule has its reading law; the depth of nesting is bounded by the number of tokens. From an answer to a
derivation `Sound` is carried from reader to reader.
-/

namespace ElementLocator.XPath

/-! ### From derivations to answers -/

namespace Derives

open XPath.Grammar

variable {stop : Nat}

/-- An item is no longer than all items, each with something in front of it. -/
theorem length_le_flatMap {items : List (List Token × Expr)} {i : List Token × Expr} (hi : i ∈ items)
    (inFront : Token) : i.1.length ≤ (items.flatMap fun j => inFront :: j.1).length := by
  have hsub := (List.sublist_flatten_of_mem (List.mem_map_of_mem (f := fun j => inFront :: j.1) hi)).length_le
  rw [List.flatMap_def]
  exact (Nat.le_succ _).trans hsub

/-- An argument is no longer than all arguments. -/
theorem length_le_intercalate {args : List (List Token × Expr)} {a : List Token × Expr} (ha : a ∈ args) :
    a.1.length ≤ ([Token.comma].intercalate (args.map Prod.fst)).length := by
  induction args with
  | nil => cases ha
  | cons b args ih =>
    cases args with
    | nil =>
      rw [List.mem_singleton.1 ha, List.map_singleton, List.intercalate_singleton]
    | cons c args =>
      rw [List.map_cons, List.map_cons, List.intercalate_cons_cons, ← List.map_cons, List.length_append,
        List.length_append]
      rcases List.mem_cons.1 ha with rfl | ha
      · omega
      · have hle := ih ha
        omega

mutual

/-- A derived primary expression is read as what it says. By induction on the derivation: what is nested in it lacks the
tokens around it, and that pays for one level of depth. -/
theorem Primary.reads {depth : Nat} {ts : List Token} {e : Expr} (hdepth : ts.length ≤ depth + 1) :
    Primary ts e → Reads (primary stop (expression stop depth)) ts e Anything
  | .number value => reads_number value
  | .literal text => reads_literal text
  | .attribute name => reads_attribute name
  | .parentheses h => by
    simp only [List.length_append, List.length_cons, List.length_nil] at hdepth
    exact reads_parentheses (h.reads (by omega))
  | .call args hname htakes hargs => by
    refine reads_call hname htakes (fun a ha => (hargs a ha).reads ?_) fun a ha => (hargs a ha).opens
    have hle := length_le_intercalate ha
    simp only [List.length_cons, List.length_append] at hdepth
    omega

/-- A derived comparison is read as what it says, unless a sign of comparison comes next. -/
theorem Comparison.reads {depth : Nat} {ts : List Token} {e : Expr} (hdepth : ts.length ≤ depth + 1) :
    Comparison ts e → Reads (comparison stop (expression stop depth)) ts e NoComparison
  | .primary h => (h.reads hdepth).comparison
  | .compare hleft hsign hright => by
    rw [List.length_append, List.length_cons] at hdepth
    exact reads_compare (hleft.reads (by omega)) hsign (hright.reads (by omega))

/-- A derived conjunction is read as what it says, unless it goes on behind it. -/
theorem Conjunction.reads {depth : Nat} {ts : List Token} {e : Expr} (hdepth : ts.length ≤ depth + 1) :
    Conjunction ts e → Reads (chain "and" .and (comparison stop (expression stop depth))) ts e fun rest =>
      NoComparison rest ∧ NoKeyword "and" rest
  | .join first others hfirst hothers => by
    rw [List.length_append] at hdepth
    refine reads_conjunction first others (hfirst.reads (by omega)) fun i hi => (hothers i hi).reads ?_
    have hle := length_le_flatMap hi (.name "and")
    omega

/-- An expression is read at any depth that its length allows. -/
theorem Disjunction.reads {depth : Nat} {ts : List Token} {e : Expr} (hdepth : ts.length ≤ depth) :
    Disjunction ts e → Reads (expression stop depth) ts e Closes
  | .join first others hfirst hothers => by
    obtain ⟨t, more, heq, -⟩ := hfirst.opens
    rw [List.length_append] at hdepth
    obtain ⟨depth, rfl⟩ : ∃ k, depth = k + 1 := by
      rw [heq, List.length_cons] at hdepth
      exact Nat.exists_eq_succ_of_ne_zero (by omega)
    refine reads_disjunction first others (hfirst.reads (by omega)) fun i hi => (hothers i hi).reads ?_
    have hle := length_le_flatMap hi (.name "or")
    omega

end

/-- A derived step is read as what it says. -/
theorem Step.reads {ts : List Token} {s : XPath.Step} (h : Step ts s) : ReadsStep stop ts s := by
  cases h with
  | dot => exact reads_dot
  | dotDot => exact reads_dotDot
  | full predicates haxis htest hpredicates =>
    exact reads_step haxis htest fun i hi depth hdepth => (hpredicates i hi).reads hdepth

end Derives

namespace Grammar

/-! ### From answers to derivations -/

variable {α : Type} {stop : Nat} {nested : Reader Expr}

/-- Every answer of the reader is for tokens taken off the front that are written for it. -/
def Sound (reader : Reader α) (Writes : List Token → α → Prop) : Prop :=
  ∀ ts answer rest, reader ts = .ok (answer, rest) → ∃ used, ts = used ++ rest ∧ Writes (used.map Placed.token) answer

/-- A reader that goes on after another one answers only if both do. -/
theorem bind_ok {β γ : Type} {x : Except Error β} {f : β → Except Error γ} {answer : γ}
    (h : x >>= f = .ok answer) : ∃ b, x = .ok b ∧ f b = .ok answer := by
  cases x with
  | error => cases h
  | ok b => exact ⟨b, rfl, h⟩

/-- An expected token that is found was in front. -/
theorem expect_ok {token : Token} {ts rest : List Placed} (h : expect stop token ts = .ok rest) :
    ∃ offset, ts = ⟨token, offset⟩ :: rest := by
  cases ts with
  | nil => cases h
  | cons t later =>
    obtain ⟨t, offset⟩ := t
    simp only [expect] at h
    split at h
    · next heq =>
      cases h
      exact ⟨offset, by rw [heq]⟩
    · cases h

/-- Arguments and the parenthesis that closes the call. -/
theorem arguments_sound (hnested : Sound nested Derives.Disjunction) (bound : Nat) :
    Sound (arguments stop nested bound) fun ts es => ∃ args : List (List Token × Expr), args ≠ [] ∧
      ts = [Token.comma].intercalate (args.map Prod.fst) ++ [.rightParen] ∧ es = args.map Prod.snd ∧
        ∀ a ∈ args, Derives.Disjunction a.1 a.2 := by
  induction bound with
  | zero => exact fun ts answer rest h => nomatch h
  | succ bound ih =>
    intro ts answer rest hread
    obtain ⟨⟨first, behind⟩, hfirst, h⟩ := bind_ok hread
    obtain ⟨used, rfl, hused⟩ := hnested _ _ _ hfirst
    dsimp only at h
    split at h
    · next offset later =>
      cases h
      refine ⟨used ++ [⟨.rightParen, offset⟩], by simp, [(used.map Placed.token, first)], by simp, ?_, rfl, ?_⟩
      · rw [List.map_append, List.map_singleton, List.map_singleton, List.intercalate_singleton]
      · simpa using hused
    · obtain ⟨later, hcomma, hmore⟩ := bind_ok h
      obtain ⟨⟨others, more⟩, hothers, hall⟩ := bind_ok hmore
      cases hall
      obtain ⟨offset, rfl⟩ := expect_ok hcomma
      obtain ⟨front, rfl, args, hne, htokens, rfl, hargs⟩ := ih _ _ _ hothers
      refine ⟨used ++ ⟨.comma, offset⟩ :: front, by simp, (used.map Placed.token, first) :: args, by simp, ?_, rfl, ?_⟩
      · obtain ⟨a, args, rfl⟩ := List.exists_cons_of_ne_nil hne
        rw [List.map_append, List.map_cons, htokens, List.map_cons, List.map_cons, List.map_cons,
          List.intercalate_cons_cons]
        simp
      · exact List.forall_mem_cons.2 ⟨hused, hargs⟩

/-- A call that passes the check of the number of arguments. -/
theorem checked_ok {function : Function} {given : List Expr} {error : Error} {behind : List Placed}
    {answer : Expr × List Placed}
    (h : (if decide (given.length < function.least) || function.most?.any fun most => decide (most < given.length) then
      .error error else .ok (.call function given, behind)) = Except.ok answer) :
    function.Takes given.length ∧ answer = (.call function given, behind) := by
  split at h
  · cases h
  · next hcount =>
    cases h
    exact ⟨Function.takes_iff.2 (Bool.not_eq_true _ ▸ hcount), rfl⟩

/-- A call is told apart by the parenthesis that closes it at once, and checked when its arguments are read. -/
theorem call_sound (hnested : Sound nested Derives.Disjunction) {name : String} {offset : Nat} :
    Sound (call stop nested name offset) fun ts e => Derives.Primary (.name name :: .leftParen :: ts) e := by
  intro ts answer rest h
  unfold call at h
  split at h
  · cases h
  · next function hname =>
    dsimp only at h
    split at h
    · next offset' later =>
      obtain ⟨htakes, heq⟩ := checked_ok h
      cases heq
      exact ⟨[⟨.rightParen, offset'⟩], rfl, .call [] hname htakes (by simp)⟩
    · obtain ⟨⟨given, behind⟩, hgiven, hcall⟩ := bind_ok h
      obtain ⟨htakes, heq⟩ := checked_ok hcall
      cases heq
      obtain ⟨used, rfl, args, -, htokens, rfl, hargs⟩ := arguments_sound hnested _ _ _ _ hgiven
      rw [List.length_map] at htakes
      exact ⟨used, rfl, htokens ▸ .call args hname htakes hargs⟩

/-- Whatever is read as a primary expression is derived as one. -/
theorem primary_sound (hnested : Sound nested Derives.Disjunction) : Sound (primary stop nested) Derives.Primary := by
  intro ts answer rest h
  unfold primary at h
  split at h
  · next value offset later =>
    cases h
    exact ⟨[⟨.number value, offset⟩], rfl, .number value⟩
  · next text offset later =>
    cases h
    exact ⟨[⟨.literal text, offset⟩], rfl, .literal text⟩
  · next offset name offset' later =>
    cases h
    exact ⟨[⟨.at, offset⟩, ⟨.name name, offset'⟩], rfl, .attribute name⟩
  · cases h
  · next offset later =>
    obtain ⟨⟨inner, behind⟩, hinner, h⟩ := bind_ok h
    obtain ⟨more, hclosing, h⟩ := bind_ok h
    cases h
    obtain ⟨used, rfl, hused⟩ := hnested _ _ _ hinner
    obtain ⟨offset', rfl⟩ := expect_ok hclosing
    refine ⟨⟨.leftParen, offset⟩ :: used ++ [⟨.rightParen, offset'⟩], by simp, ?_⟩
    simpa using Derives.Primary.parentheses hused
  · next name offset offset' later =>
    obtain ⟨used, rfl, hused⟩ := call_sound hnested _ _ _ h
    exact ⟨⟨.name name, offset⟩ :: ⟨.leftParen, offset'⟩ :: used, rfl, hused⟩
  · cases h

/-- Whatever is read as a comparison is derived as one. -/
theorem comparison_sound (hnested : Sound nested Derives.Disjunction) :
    Sound (comparison stop nested) Derives.Comparison := by
  intro ts answer rest hread
  obtain ⟨⟨left, behind⟩, hleft, h⟩ := bind_ok hread
  obtain ⟨used, rfl, hused⟩ := primary_sound hnested _ _ _ hleft
  dsimp only at h
  split at h
  · next offset later =>
    obtain ⟨⟨right, more⟩, hright, h⟩ := bind_ok h
    cases h
    obtain ⟨used', rfl, hused'⟩ := primary_sound hnested _ _ _ hright
    refine ⟨used ++ ⟨.equals, offset⟩ :: used', by simp, ?_⟩
    simpa using Derives.Comparison.compare hused .equal hused'
  · next offset later =>
    obtain ⟨⟨right, more⟩, hright, h⟩ := bind_ok h
    cases h
    obtain ⟨used', rfl, hused'⟩ := primary_sound hnested _ _ _ hright
    refine ⟨used ++ ⟨.notEquals, offset⟩ :: used', by simp, ?_⟩
    simpa using Derives.Comparison.compare hused .unequal hused'
  · cases h
    exact ⟨used, rfl, .primary hused⟩

section Chains

variable {keyword : String} {join : Expr → Expr → Expr} {item : Reader Expr} {Writes : List Token → Expr → Prop}

/-- Items behind the keyword, with what they are joined to on their left. -/
theorem chainRest_sound (hitem : Sound item Writes) (bound : Nat) (left : Expr) :
    Sound (chainRest keyword join item bound left) fun ts e =>
      ∃ others : List (List Token × Expr), ts = (others.flatMap fun i => .name keyword :: i.1) ∧
        e = (others.map Prod.snd).foldl join left ∧ ∀ i ∈ others, Writes i.1 i.2 := by
  induction bound generalizing left with
  | zero =>
    intro ts answer rest h
    cases h
    exact ⟨[], rfl, [], rfl, rfl, by simp⟩
  | succ bound ih =>
    intro ts answer rest h
    unfold chainRest at h
    split at h
    · next word offset later =>
      split at h
      · next heq =>
        subst heq
        obtain ⟨⟨right, behind⟩, hright, hrest⟩ := bind_ok h
        obtain ⟨used, rfl, hused⟩ := hitem _ _ _ hright
        obtain ⟨used', rfl, others, htokens, rfl, hothers⟩ := ih _ _ _ _ hrest
        refine ⟨⟨.name word, offset⟩ :: used ++ used', by simp, (used.map Placed.token, right) :: others, ?_, rfl, ?_⟩
        · rw [List.flatMap_cons, ← htokens, List.map_append, List.map_cons]
        · exact List.forall_mem_cons.2 ⟨hused, hothers⟩
      · cases h
        exact ⟨[], rfl, [], rfl, rfl, by simp⟩
    · cases h
      exact ⟨[], rfl, [], rfl, rfl, by simp⟩

/-- Whatever is read as a chain is a first item and others behind the keyword, joined from the left. -/
theorem chain_sound (hitem : Sound item Writes) :
    Sound (chain keyword join item) fun ts e => ∃ (first : List Token × Expr) (others : List (List Token × Expr)),
      ts = (first.1 ++ others.flatMap fun i => .name keyword :: i.1) ∧
        e = (others.map Prod.snd).foldl join first.2 ∧ Writes first.1 first.2 ∧ ∀ i ∈ others, Writes i.1 i.2 := by
  intro ts answer rest hread
  obtain ⟨⟨first, behind⟩, hfirst, h⟩ := bind_ok hread
  obtain ⟨used, rfl, hused⟩ := hitem _ _ _ hfirst
  obtain ⟨used', rfl, others, htokens, rfl, hothers⟩ := chainRest_sound hitem _ _ _ _ _ h
  refine ⟨used ++ used', by simp, (used.map Placed.token, first), others, ?_, rfl, hused, hothers⟩
  rw [List.map_append, htokens]

end Chains

/-- Whatever is read as a conjunction is derived as one. -/
theorem conjunction_sound (hnested : Sound nested Derives.Disjunction) :
    Sound (chain "and" .and (comparison stop nested)) Derives.Conjunction := by
  intro ts answer rest h
  obtain ⟨used, rfl, first, others, htokens, rfl, hfirst, hothers⟩ := chain_sound (comparison_sound hnested) _ _ _ h
  exact ⟨used, rfl, htokens ▸ .join first others hfirst hothers⟩

/-- Whatever is read as a disjunction is derived as one. -/
theorem disjunction_sound (hnested : Sound nested Derives.Disjunction) :
    Sound (disjunction stop nested) Derives.Disjunction := by
  intro ts answer rest h
  obtain ⟨used, rfl, first, others, htokens, rfl, hfirst, hothers⟩ := chain_sound (conjunction_sound hnested) _ _ _ h
  exact ⟨used, rfl, htokens ▸ .join first others hfirst hothers⟩

/-- By induction on the depth of nesting. -/
theorem expression_sound (depth : Nat) : Sound (expression stop depth) Derives.Disjunction := by
  induction depth with
  | zero => exact fun ts answer rest h => nomatch h
  | succ depth ih => exact disjunction_sound ih

/-- Whatever is read as predicates is derived one by one, each of them in brackets. -/
theorem predicates_sound (bound : Nat) :
    Sound (predicates stop bound) fun ts es => ∃ items : List (List Token × Expr),
      ts = (items.flatMap fun i => .leftBracket :: i.1 ++ [.rightBracket]) ∧ es = items.map Prod.snd ∧
        ∀ i ∈ items, Derives.Disjunction i.1 i.2 := by
  induction bound with
  | zero =>
    intro ts answer rest h
    cases h
    exact ⟨[], rfl, [], rfl, rfl, by simp⟩
  | succ bound ih =>
    intro ts answer rest h
    unfold predicates at h
    split at h
    · next offset later =>
      obtain ⟨⟨first, behind⟩, hfirst, h⟩ := bind_ok h
      obtain ⟨more, hclosing, h⟩ := bind_ok h
      obtain ⟨⟨others, last⟩, hothers, h⟩ := bind_ok h
      cases h
      obtain ⟨used, rfl, hused⟩ := expression_sound _ _ _ _ hfirst
      obtain ⟨offset', rfl⟩ := expect_ok hclosing
      obtain ⟨used', rfl, items, htokens, rfl, hitems⟩ := ih _ _ _ hothers
      refine ⟨⟨.leftBracket, offset⟩ :: used ++ ⟨.rightBracket, offset'⟩ :: used', by simp,
        (used.map Placed.token, first) :: items, ?_, rfl, List.forall_mem_cons.2 ⟨hused, hitems⟩⟩
      rw [List.flatMap_cons, ← htokens]
      simp
    · cases h
      exact ⟨[], rfl, [], rfl, rfl, by simp⟩

/-- Whatever is read as an axis is derived as one. -/
theorem axis_sound : Sound axis Derives.AxisPart := by
  intro ts answer rest h
  unfold axis at h
  split at h
  · next name offset offset' later =>
    split at h
    · next direction hname =>
      cases h
      exact ⟨[⟨.name name, offset⟩, ⟨.colonColon, offset'⟩], rfl, .named hname⟩
    · cases h
  · cases h
    exact ⟨[], rfl, .none⟩

/-- Whatever is read as a node test is derived as one. -/
theorem nodeTest_sound : Sound (nodeTest stop) Derives.Test := by
  intro ts answer rest h
  unfold nodeTest at h
  split at h
  · next offset later =>
    cases h
    exact ⟨[⟨.star, offset⟩], rfl, .star⟩
  · next name offset offset' later =>
    split at h
    · next heq =>
      subst heq
      obtain ⟨more, hclosing, h⟩ := bind_ok h
      cases h
      obtain ⟨offset'', rfl⟩ := expect_ok hclosing
      exact ⟨[⟨.name "node", offset⟩, ⟨.leftParen, offset'⟩, ⟨.rightParen, offset''⟩], rfl, .node⟩
    · cases h
  · next name offset later _ =>
    cases h
    exact ⟨[⟨.name name, offset⟩], rfl, .name name⟩
  · cases h
  · cases h

/-- Whatever is read as a step is derived as one. -/
theorem step_sound : Sound (step stop) Derives.Step := by
  intro ts answer rest h
  unfold step at h
  split at h
  · next offset later =>
    cases h
    exact ⟨[⟨.dot, offset⟩], rfl, .dot⟩
  · next offset later =>
    cases h
    exact ⟨[⟨.dotDot, offset⟩], rfl, .dotDot⟩
  · obtain ⟨⟨direction, behind⟩, hdirection, h⟩ := bind_ok h
    obtain ⟨⟨test, more⟩, htest, h⟩ := bind_ok h
    obtain ⟨⟨given, last⟩, hgiven, h⟩ := bind_ok h
    cases h
    obtain ⟨front, rfl, hfront⟩ := axis_sound _ _ _ hdirection
    obtain ⟨middle, rfl, hmiddle⟩ := nodeTest_sound _ _ _ htest
    obtain ⟨back, rfl, items, htokens, rfl, hitems⟩ := predicates_sound _ _ _ _ hgiven
    refine ⟨front ++ middle ++ back, by simp, ?_⟩
    rw [List.map_append, List.map_append, htokens]
    exact .full items hfront hmiddle hitems

/-- Whatever is read as steps is derived as a relative path. -/
theorem steps_sound (bound : Nat) : Sound (steps stop bound) (Derives.RelPath Derives.Step) := by
  induction bound with
  | zero => exact fun ts answer rest h => nomatch h
  | succ bound ih =>
    intro ts answer rest hread
    obtain ⟨⟨first, behind⟩, hfirst, h⟩ := bind_ok hread
    obtain ⟨used, rfl, hused⟩ := step_sound _ _ _ hfirst
    dsimp only at h
    split at h
    · next offset later =>
      obtain ⟨⟨others, more⟩, hothers, h⟩ := bind_ok h
      cases h
      obtain ⟨used', rfl, hused'⟩ := ih _ _ _ hothers
      refine ⟨used ++ ⟨.doubleSlash, offset⟩ :: used', by simp, ?_⟩
      simpa using Derives.RelPath.cons hused .double hused'
    · next offset later =>
      obtain ⟨⟨others, more⟩, hothers, h⟩ := bind_ok h
      cases h
      obtain ⟨used', rfl, hused'⟩ := ih _ _ _ hothers
      refine ⟨used ++ ⟨.slash, offset⟩ :: used', by simp, ?_⟩
      simpa using Derives.RelPath.cons hused .single hused'
    · cases h
      exact ⟨used, rfl, .step hused⟩

/-- Whatever is read as a location path is derived as one. -/
theorem locationPath_sound : Sound (locationPath stop) (Derives.Path Derives.Step) := by
  intro ts answer rest h
  unfold locationPath at h
  split at h
  · next offset later =>
    obtain ⟨⟨others, more⟩, hothers, h⟩ := bind_ok h
    cases h
    obtain ⟨used, rfl, hused⟩ := steps_sound _ _ _ _ hothers
    exact ⟨⟨.doubleSlash, offset⟩ :: used, rfl, .absolute .double hused⟩
  · next offset =>
    cases h
    exact ⟨[⟨.slash, offset⟩], rfl, .root⟩
  · next offset later _ =>
    obtain ⟨⟨others, more⟩, hothers, h⟩ := bind_ok h
    cases h
    obtain ⟨used, rfl, hused⟩ := steps_sound _ _ _ _ hothers
    exact ⟨⟨.slash, offset⟩ :: used, rfl, .absolute .single hused⟩
  · obtain ⟨⟨others, more⟩, hothers, h⟩ := bind_ok h
    cases h
    obtain ⟨used, rfl, hused⟩ := steps_sound _ _ _ _ hothers
    exact ⟨used, rfl, .relative hused⟩

end Grammar

/-! ### Location paths -/

/-- A list of tokens is read as a path exactly if the grammar derives it for that path. -/
theorem ofTokens_ok_iff {stop : Nat} {ts : List Placed} {path : LocationPath} :
    LocationPath.ofTokens stop ts = .ok path ↔ ts ≠ [] ∧ Derives.Path Derives.Step (ts.map Placed.token) path := by
  constructor
  · intro h
    unfold LocationPath.ofTokens at h
    split at h
    · cases h
    · next hne =>
      obtain ⟨⟨found, rest⟩, hfound, h⟩ := Grammar.bind_ok h
      dsimp only at h
      cases rest with
      | cons t rest => cases h
      | nil =>
        cases h
        obtain ⟨used, rfl, hused⟩ := Grammar.locationPath_sound _ _ _ hfound
        rw [List.append_nil] at hne ⊢
        exact ⟨hne, hused⟩
  · rintro ⟨-, h⟩
    exact Grammar.ofTokens_path (h.mono fun _ _ => Derives.Step.reads) rfl

/-- The grammar is unambiguous. -/
theorem Derives.Path.unique {ts : List Token} {path other : LocationPath} (h : Derives.Path Derives.Step ts path)
    (hother : Derives.Path Derives.Step ts other) : path = other := by
  have hplaced : (ts.map (Placed.mk · 0)).map Placed.token = ts := by simp [List.map_map, Function.comp_def]
  have hread := Grammar.ofTokens_path (h.mono fun _ _ => @Derives.Step.reads 0 _ _) hplaced
  have hsame := Grammar.ofTokens_path (hother.mono fun _ _ => @Derives.Step.reads 0 _ _) hplaced
  exact Except.ok.inj (hread.symm.trans hsame)

/-- A query that is read as a path consists of tokens for which the grammar derives that path. -/
theorem derives_of_parse {query : String} {path : LocationPath} (h : parse query = .ok path) :
    ∃ ts, tokens 0 query.toList = .ok ts ∧ ts ≠ [] ∧ Derives.Path Derives.Step (ts.map Placed.token) path := by
  obtain ⟨ts, hts, hpath⟩ := Grammar.bind_ok h
  exact ⟨ts, hts, ofTokens_ok_iff.1 hpath⟩

/-- A query is read as a path exactly if it consists of tokens, at least one, for which the grammar derives that
path. -/
theorem parse_ok_iff {query : String} {path : LocationPath} :
    parse query = .ok path ↔
      ∃ ts, tokens 0 query.toList = .ok ts ∧ ts ≠ [] ∧ Derives.Path Derives.Step (ts.map Placed.token) path := by
  refine ⟨derives_of_parse, ?_⟩
  rintro ⟨ts, hts, h⟩
  rw [parse, hts]
  exact ofTokens_ok_iff.2 h

end ElementLocator.XPath
