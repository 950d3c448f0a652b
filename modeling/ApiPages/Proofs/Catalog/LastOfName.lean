import ApiPages.Proofs.Catalog.Rivals
import ApiPages.Proofs.Text.ByteOrder
import Mathlib.Data.Finset.Card

/-!
# The declarations that the catalog keeps

Of the declarations that would get one page the catalog keeps the last, and its groups are ordered
by the bytes of the names. So it has one entry for each category and name that the declarations
have, and only declarations that would get one page have to stay in their order
(`ofList_lastOfName`).
-/

namespace ApiPages.Catalog

variable {d e : Declaration} {ds es : List Declaration} {c : Category} {n : String}

/-- Whether a declaration of a category stands in a list at a place behind which no other one of the
category has its name. -/
def IsLast (c : Category) (ds : List Declaration) (d : Declaration) : Prop :=
  Category.ofKind? d.kind = some c ∧ ∃ before after, ds = before ++ d :: after ∧
    ∀ e ∈ after, Category.ofKind? e.kind = some c → e.name ≠ d.name

/-- The categories and names of the pages that declarations would get. -/
def identities (ds : List Declaration) : List (Category × String) :=
  ds.filterMap fun d => (Category.ofKind? d.kind).map fun c => (c, d.name)

/-- Whether a list is another one rearranged, with the declarations of one category and one name in
the same order. -/
structure RivalsInOrder (ds es : List Declaration) : Prop where
  perm : ds.Perm es
  rivals : ∀ c n, Catalog.rivals c n ds = Catalog.rivals c n es

/-! ## The last rival -/

/-- The last rival is the one with none behind it. -/
theorem getLast?_rivals_iff : (rivals c d.name ds).getLast? = some d ↔ IsLast c ds d := by
  rw [rivals, List.filter_filter, List.getLast?_filter, List.find?_eq_some_iff_append]
  -- what is found first from the end has nothing like it behind it
  constructor
  · rintro ⟨hd, after, before, hds, hafter⟩
    refine ⟨by simpa using hd, before.reverse, after.reverse, ?_, ?_⟩
    · rw [← List.reverse_reverse ds, hds]
      simp
    · intro e he hc hname
      have hno := hafter e (List.mem_reverse.1 he)
      simp [hc, hname] at hno
  · rintro ⟨hc, before, after, rfl, hafter⟩
    refine ⟨by simpa using hc, after.reverse, before.reverse, by simp, ?_⟩
    intro e he
    have hno := hafter e (List.mem_reverse.1 he)
    simpa [not_and_or, or_comm, imp_iff_not_or] using hno

/-- Neighbours that would get different pages may change places. -/
theorem rivals_swap (h : ¬ d.SamePage e) (c : Category) (n : String) (ds : List Declaration) :
    rivals c n (d :: e :: ds) = rivals c n (e :: d :: ds) := by
  have hpair : rivals c n [d, e] = rivals c n [e, d] := by
    have hfilter : ∀ ds, rivals c n ds =
        ds.filter fun d => d.name = n ∧ Category.ofKind? d.kind = some c := by
      intro ds
      simp [rivals]
    simp only [hfilter, List.filter_cons, decide_eq_true_eq]
    by_cases hd : d.name = n ∧ Category.ofKind? d.kind = some c
    · -- then the other one is no rival
      have he : ¬ (e.name = n ∧ Category.ofKind? e.kind = some c) := fun he =>
        h ⟨c, hd.2, he.2, hd.1.trans he.1.symm⟩
      rw [if_pos hd, if_neg he, if_neg he, if_pos hd]
    · rw [if_neg hd, if_neg hd]
  have hsplit : ∀ d e : Declaration, d :: e :: ds = [d, e] ++ ds := fun _ _ => rfl
  rw [hsplit, rivals_append, hpair, ← rivals_append, hsplit]

/-! ## The entries -/

/-- The categories that have a group are those with a declaration, in the order of the index. -/
theorem groups_ofList (ds : List Declaration) :
    (ofList ds).groups =
      (Category.all.filter fun c => (ofList ds).group c ≠ []).map
        fun c => (c, (ofList ds).group c) := by
  simp only [group_ofList]
  show List.filter _ (List.map _ _) = _
  rw [List.filter_map]
  refine congrArg (List.map _) (List.filter_congr fun c _ => ?_)
  show (!(groupOf c ds).isEmpty) = decide (groupOf c ds ≠ [])
  cases groupOf c ds <;> simp

/-- The entries have the categories and names of the pages that the declarations would get. -/
theorem mem_map_entries_iff :
    (c, n) ∈ (ofList ds).entries.map (fun e => (e.1, e.2.name)) ↔ (c, n) ∈ identities ds := by
  have hentries : (c, n) ∈ (ofList ds).entries.map (fun e => (e.1, e.2.name)) ↔
      ∃ d ∈ (ofList ds).group c, d.name = n := by
    simp [← mem_entries]
  rw [hentries, exists_mem_group_iff, identities, List.mem_filterMap]
  simp

/-- There is one entry for each category and name. -/
theorem size_ofList (ds : List Declaration) :
    (ofList ds).size = (identities ds).toFinset.card := by
  have hnodup : ((ofList ds).entries.map fun e => (e.1, e.2.name)).Nodup := by
    refine (nodup_entries ds).map_on fun e₁ h₁ e₂ h₂ h => ?_
    obtain ⟨hc, hname⟩ := Prod.mk.inj h
    exact entry_eq h₁ h₂ hc hname
  have hset : ((ofList ds).entries.map fun e => (e.1, e.2.name)).toFinset =
      (identities ds).toFinset := by
    ext ⟨c, n⟩
    rw [List.mem_toFinset, List.mem_toFinset, mem_map_entries_iff]
  rw [← hset, List.toFinset_card_of_nodup hnodup, List.length_map, size]

/-! ## The catalog -/

/-- **A category keeps the last declaration of each name**, ordered by the bytes of the names. The
groups are the categories that have a declaration, in the order of the index, with what they keep;
there are as many entries as the declarations have different categories and names, and other
declarations than rivals may change places. -/
theorem ofList_lastOfName (ds : List Declaration) :
    (∀ c, ((ofList ds).group c).Pairwise fun d e => Text.bytes d.name < Text.bytes e.name) ∧
    (∀ c d, d ∈ (ofList ds).group c ↔ IsLast c ds d) ∧
    (ofList ds).groups =
      (Category.all.filter fun c => (ofList ds).group c ≠ []).map
        (fun c => (c, (ofList ds).group c)) ∧
    (ofList ds).size = (identities ds).toFinset.card ∧
    ∀ es, RivalsInOrder ds es → ofList es = ofList ds := by
  refine ⟨fun c => (ordered_group ds c).bytes, fun c d => ?_, groups_ofList ds, size_ofList ds,
    fun es h => ?_⟩
  · rw [mem_group_iff_rivals, getLast?_rivals_iff]
  · exact ofList_congr fun c n => by rw [h.rivals]

/-- A struct with a supertype. -/
def dup (supertype : String) : Declaration :=
  { Declaration.bare .structType "Dup" [] with inheritance := [supertype] }

/-- The second of the structs is kept, wherever an enum of their name stands. -/
theorem ofList_lastOfName_dup :
    RivalsInOrder [dup "First", .bare .enumType "Dup" [], dup "Second"]
      [dup "First", dup "Second", .bare .enumType "Dup" []] ∧
    ofList [dup "First", dup "Second", .bare .enumType "Dup" []] =
      ofList [dup "First", .bare .enumType "Dup" [], dup "Second"] ∧
    dup "Second" ∈ (ofList [dup "First", .bare .enumType "Dup" [], dup "Second"]).group .structs := by
  obtain ⟨-, hmem, -, -, hperm⟩ :=
    ofList_lastOfName [dup "First", .bare .enumType "Dup" [], dup "Second"]
  have hinOrder : RivalsInOrder [dup "First", .bare .enumType "Dup" [], dup "Second"]
      [dup "First", dup "Second", .bare .enumType "Dup" []] := by
    refine ⟨.cons _ (.swap _ _ _), fun c n => ?_⟩
    -- the enum and the second struct have no category in common
    rw [← List.singleton_append, rivals_append, rivals_swap, ← rivals_append, List.singleton_append]
    rintro ⟨_, ⟨⟩, h, -⟩
    cases h
  exact ⟨hinOrder, hperm _ hinOrder,
    (hmem .structs _).2 ⟨rfl, [dup "First", .bare .enumType "Dup" []], [], rfl, by simp⟩⟩

end ApiPages.Catalog
