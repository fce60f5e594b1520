import Settlement.Instruction.Memo

/-! The grammar of memos. The source ends at the third colon, and what follows it may hold more of
them. A memo made of a source with colons is read as one with a shorter source. -/

namespace Settlement.Memo

theorem splitColon?_eq_some {memo before after : Text} :
    splitColon? memo = some (before, after) ↔
      colon ∉ before ∧ memo = before ++ colon :: after := by
  induction memo generalizing before with
  | nil => simp [splitColon?]
  | cons c rest ih =>
    by_cases hc : c = colon
    · cases before with
      | nil => simp [splitColon?, hc]
      | cons b before =>
        simp only [splitColon?, hc, if_true, Option.some.injEq, Prod.mk.injEq, reduceCtorEq,
          false_and, false_iff, List.cons_append]
        rintro ⟨hnone, heq⟩
        rw [← (List.cons.inj heq).1] at hnone
        exact hnone List.mem_cons_self
    · cases before with
      | nil => simp [splitColon?, hc]
      | cons b before =>
        simp only [splitColon?, hc, if_false, Option.map_eq_some_iff, Prod.mk.injEq,
          List.cons.injEq, List.mem_cons, not_or, List.cons_append]
        constructor
        · rintro ⟨⟨before', after'⟩, hsplit, ⟨rfl, rfl⟩, rfl⟩
          obtain ⟨hnone, hrest⟩ := ih.1 hsplit
          exact ⟨⟨Ne.symm hc, hnone⟩, rfl, hrest⟩
        · rintro ⟨⟨_, hnone⟩, rfl, hrest⟩
          exact ⟨(before, after), ih.2 ⟨hnone, hrest⟩, ⟨rfl, rfl⟩, rfl⟩

theorem guard_eq_some {p : Prop} [Decidable p] {u : Unit} :
    (guard p : Option Unit) = some u ↔ p := by
  change (if p then some () else none) = some u ↔ p
  split <;> simp_all

theorem parse?_eq_some {memo source identifier : Text} :
    parse? memo = some (source, identifier) ↔
      colon ∉ source ∧ source ≠ [] ∧ identifier ≠ [] ∧ memo = make source identifier := by
  constructor
  · intro h
    obtain ⟨⟨first, rest⟩, hfirst, h⟩ := Option.bind_eq_some_iff.1 h
    obtain ⟨⟨second, rest'⟩, hsecond, h⟩ := Option.bind_eq_some_iff.1 h
    obtain ⟨⟨source', identifier'⟩, hthird, h⟩ := Option.bind_eq_some_iff.1 h
    obtain ⟨_, hguard, h⟩ := Option.bind_eq_some_iff.1 h
    cases h
    obtain ⟨-, rfl⟩ := splitColon?_eq_some.1 hfirst
    obtain ⟨-, rfl⟩ := splitColon?_eq_some.1 hsecond
    obtain ⟨hnone, rfl⟩ := splitColon?_eq_some.1 hthird
    obtain ⟨rfl, rfl, hsource, hidentifier⟩ := guard_eq_some.1 hguard
    exact ⟨hnone, hsource, hidentifier, by simp [make]⟩
  · rintro ⟨hnone, hsource, hidentifier, rfl⟩
    have hscheme : splitColon? (make source identifier) =
        some (scheme, version ++ colon :: (source ++ colon :: identifier)) :=
      splitColon?_eq_some.2 ⟨by decide, by simp [make]⟩
    have hversion : splitColon? (version ++ colon :: (source ++ colon :: identifier)) =
        some (version, source ++ colon :: identifier) :=
      splitColon?_eq_some.2 ⟨by decide, rfl⟩
    have hrest : splitColon? (source ++ colon :: identifier) = some (source, identifier) :=
      splitColon?_eq_some.2 ⟨hnone, rfl⟩
    rw [parse?]
    refine Option.bind_eq_some_iff.2 ⟨_, hscheme, ?_⟩
    refine Option.bind_eq_some_iff.2 ⟨_, hversion, ?_⟩
    refine Option.bind_eq_some_iff.2 ⟨_, hrest, ?_⟩
    have hguard : (guard (scheme = scheme ∧ version = version ∧ source ≠ [] ∧ identifier ≠ []) :
        Option Unit) = some () := guard_eq_some.2 ⟨rfl, rfl, hsource, hidentifier⟩
    exact Option.bind_eq_some_iff.2 ⟨(), hguard, rfl⟩

/-- A memo is made of a source without a colon and of an identifier, neither of them empty. -/
def InGrammar (memo : Text) : Prop :=
  ∃ source identifier, colon ∉ source ∧ source ≠ [] ∧ identifier ≠ [] ∧
    memo = make source identifier

theorem isValid_iff_inGrammar {memo : Text} : isValid memo = true ↔ InGrammar memo := by
  rw [isValid, Option.isSome_iff_exists]
  constructor
  · rintro ⟨⟨source, identifier⟩, h⟩
    exact ⟨source, identifier, parse?_eq_some.1 h⟩
  · rintro ⟨source, identifier, h⟩
    exact ⟨(source, identifier), parse?_eq_some.2 h⟩

instance : DecidablePred InGrammar := fun _ => decidable_of_iff _ isValid_iff_inGrammar

/-- Text has one split at its first colon. -/
theorem split_unique {before before' after after' : Text} (hnone : colon ∉ before)
    (hnone' : colon ∉ before') (h : before ++ colon :: after = before' ++ colon :: after') :
    before = before' ∧ after = after' := by
  have hsplit : splitColon? (before ++ colon :: after) = some (before, after) :=
    splitColon?_eq_some.2 ⟨hnone, rfl⟩
  have hsplit' : splitColon? (before ++ colon :: after) = some (before', after') :=
    splitColon?_eq_some.2 ⟨hnone', h⟩
  rw [hsplit] at hsplit'
  cases hsplit'
  exact ⟨rfl, rfl⟩

theorem make_eq_make {source identifier source' identifier' : Text} :
    make source identifier = make source' identifier' ↔
      source ++ colon :: identifier = source' ++ colon :: identifier' := by
  have hmake (source identifier : Text) : make source identifier =
      (scheme ++ colon :: version ++ [colon]) ++ (source ++ colon :: identifier) := by
    simp [make]
  rw [hmake, hmake, List.append_cancel_left_eq]

theorem inGrammar_make {source identifier : Text} : InGrammar (make source identifier) ↔
    (source ≠ [] ∧ colon ∉ source ∧ identifier ≠ []) ∨
      (colon ∈ source ∧ source.head? ≠ some colon) := by
  by_cases hcolon : colon ∈ source
  · obtain ⟨before, after, rfl, hnone⟩ := List.eq_append_cons_of_mem hcolon
    have hread : (before ++ colon :: after) ++ colon :: identifier =
        before ++ colon :: (after ++ colon :: identifier) := by simp
    have hhead : (before ++ colon :: after).head? ≠ some colon ↔ before ≠ [] := by
      cases before with
      | nil => simp
      | cons b before =>
        have hb : b ≠ colon := fun h => hnone (h ▸ List.mem_cons_self)
        simp [hb]
    constructor
    · rintro ⟨source', identifier', hplain, hsource, -, hmake⟩
      rw [make_eq_make, hread] at hmake
      obtain ⟨rfl, -⟩ := split_unique hnone hplain hmake
      exact .inr ⟨hcolon, hhead.2 hsource⟩
    · rintro (⟨-, hplain, -⟩ | ⟨-, hfirst⟩)
      · exact absurd hcolon hplain
      · exact ⟨before, after ++ colon :: identifier, hnone, hhead.1 hfirst, by simp,
          make_eq_make.2 hread⟩
  · constructor
    · rintro ⟨source', identifier', hplain, hsource, hidentifier, hmake⟩
      obtain ⟨rfl, rfl⟩ := split_unique hcolon hplain (make_eq_make.1 hmake)
      exact .inl ⟨hsource, hcolon, hidentifier⟩
    · rintro (⟨hsource, -, hidentifier⟩ | ⟨hmem, -⟩)
      · exact ⟨source, identifier, hcolon, hsource, hidentifier, rfl⟩
      · exact absurd hmem hcolon

/-- A valid memo has the one source and the one identifier that it is made of. What is made of any
source and identifier is valid also if a source with colons only starts with something else: the
rest of it then counts to the identifier. -/
theorem grammar_exact :
    (∀ memo, isValid memo = true ↔ ∃ source identifier, colon ∉ source ∧ source ≠ [] ∧
      identifier ≠ [] ∧ memo = make source identifier) ∧
    (∀ source identifier source' identifier', colon ∉ source → colon ∉ source' →
      make source identifier = make source' identifier' →
      source = source' ∧ identifier = identifier') ∧
    (∀ source identifier, isValid (make source identifier) = true ↔
      (source ≠ [] ∧ colon ∉ source ∧ identifier ≠ []) ∨
        (colon ∈ source ∧ source.head? ≠ some colon)) :=
  ⟨fun _ => isValid_iff_inGrammar,
    fun _ _ _ _ hplain hplain' hmake => split_unique hplain hplain' (make_eq_make.1 hmake),
    fun _ _ => isValid_iff_inGrammar.trans inGrammar_make⟩

example : isValid (make (Text.of "pos:7") []) = true := by decide

end Settlement.Memo
