import ApiPages.Declaration.Basic
import Mathlib.Data.List.Perm.Basic
import Mathlib.Data.List.Nodup

/-!
# The declarations of a tree

A tree of declarations laid out as a list, a parent before its members. What a declaration says of
itself, its head, is kept apart from its supertypes and members, which later stages add to.
-/

namespace ApiPages

/-- What a declaration says of itself: everything but supertypes and members. -/
structure Head where
  kind : Kind
  name : String
  access : Access
  signature : String
  comment : Option Comment
  location : Option Location
deriving DecidableEq, Repr

namespace Declaration

/-- A public declaration with a name and members, and no more. -/
def bare (kind : Kind) (name : String) (members : List Declaration) : Declaration :=
  ⟨kind, name, .publicLevel, name, none, [], members, none⟩

/-- The head of a declaration. -/
def head (d : Declaration) : Head :=
  ⟨d.kind, d.name, d.access, d.signature, d.comment, d.location⟩

mutual

/-- The declarations of a tree, the root first. -/
def nodes : Declaration → List Declaration
  | ⟨kind, name, access, signature, comment, inheritance, members, location⟩ =>
    ⟨kind, name, access, signature, comment, inheritance, members, location⟩ :: nodesAll members

/-- The declarations of the trees of a list. -/
def nodesAll : List Declaration → List Declaration
  | [] => []
  | d :: ds => d.nodes ++ nodesAll ds

end

/-- The declarations below the top level: those of the members, at any depth. -/
def innerNodes (ds : List Declaration) : List Declaration :=
  ds.flatMap fun d => nodesAll d.members

theorem nodes_eq (d : Declaration) : d.nodes = d :: nodesAll d.members := by
  cases d
  rw [nodes]

theorem nodesAll_eq_flatMap (ds : List Declaration) : nodesAll ds = ds.flatMap nodes := by
  induction ds with
  | nil => rfl
  | cons d ds ih => rw [nodesAll, ih, List.flatMap_cons]

@[simp] theorem nodesAll_append (ds es : List Declaration) :
    nodesAll (ds ++ es) = nodesAll ds ++ nodesAll es := by
  simp [nodesAll_eq_flatMap]

@[simp] theorem innerNodes_append (ds es : List Declaration) :
    innerNodes (ds ++ es) = innerNodes ds ++ innerNodes es := by
  simp [innerNodes]

mutual

/-- What holds of a declaration whenever it holds of its members holds of every declaration. -/
theorem induct {P : Declaration → Prop} (step : ∀ d, (∀ m ∈ d.members, P m) → P d) :
    (d : Declaration) → P d
  | ⟨_, _, _, _, _, _, members, _⟩ => step _ (inductAll step members)

theorem inductAll {P : Declaration → Prop} (step : ∀ d, (∀ m ∈ d.members, P m) → P d) :
    (ds : List Declaration) → ∀ m ∈ ds, P m
  | [] => by simp
  | d :: ds => List.forall_mem_cons.2 ⟨induct step d, inductAll step ds⟩

end

/-! ## Declarations with the same head -/

section

variable {d e : Declaration}

theorem kind_eq_of_head (h : d.head = e.head) : d.kind = e.kind :=
  congrArg Head.kind h

theorem name_eq_of_head (h : d.head = e.head) : d.name = e.name :=
  congrArg Head.name h

theorem access_eq_of_head (h : d.head = e.head) : d.access = e.access :=
  congrArg Head.access h

theorem isExtension_eq_of_head (h : d.head = e.head) : d.isExtension = e.isExtension := by
  rw [isExtension, isExtension, kind_eq_of_head h]

end

/-! ## Counting -/

mutual

theorem count_eq_length_nodes : (d : Declaration) → d.count = d.nodes.length
  | ⟨_, _, _, _, _, _, members, _⟩ => by
    rw [count, nodes, countAll_eq_length_nodesAll members, List.length_cons, Nat.add_comm]

theorem countAll_eq_length_nodesAll : (ds : List Declaration) → countAll ds = (nodesAll ds).length
  | [] => rfl
  | d :: ds => by
    rw [countAll, nodesAll, List.length_append, count_eq_length_nodes d,
      countAll_eq_length_nodesAll ds]

end

/-- A list of trees counts its roots and what is below them. -/
theorem countAll_eq_length_add_innerNodes (ds : List Declaration) :
    countAll ds = ds.length + (innerNodes ds).length := by
  rw [countAll_eq_length_nodesAll]
  induction ds with
  | nil => rfl
  | cons d ds ih =>
    rw [nodesAll, List.length_append, ih, nodes_eq, innerNodes, innerNodes, List.flatMap_cons,
      List.length_append, List.length_cons, List.length_cons]
    omega

/-! ## What holds everywhere in a tree -/

/-- Whether something holds of every declaration in the trees of a list. -/
def Everywhere (P : Declaration → Prop) (ds : List Declaration) : Prop :=
  ∀ d ∈ nodesAll ds, P d

theorem everywhere_nil {P : Declaration → Prop} : Everywhere P [] := by
  intro d h
  simp [nodesAll] at h

theorem everywhere_cons {P : Declaration → Prop} {d : Declaration} {ds : List Declaration} :
    Everywhere P (d :: ds) ↔ P d ∧ Everywhere P d.members ∧ Everywhere P ds := by
  simp only [Everywhere, nodesAll, nodes_eq, List.cons_append, List.mem_cons, List.mem_append]
  constructor
  · intro h
    exact ⟨h d (.inl rfl), fun x hx => h x (.inr (.inl hx)), fun x hx => h x (.inr (.inr hx))⟩
  · rintro ⟨hd, hm, hs⟩ x (rfl | hx | hx)
    · exact hd
    · exact hm x hx
    · exact hs x hx

theorem everywhere_append {P : Declaration → Prop} {ds es : List Declaration} :
    Everywhere P (ds ++ es) ↔ Everywhere P ds ∧ Everywhere P es := by
  simp only [Everywhere, nodesAll_append, List.mem_append]
  exact ⟨fun h => ⟨fun x hx => h x (.inl hx), fun x hx => h x (.inr hx)⟩,
    fun h x hx => hx.elim (h.1 x) (h.2 x)⟩

/-- It holds in a list of trees when it holds in each of them. -/
theorem everywhere_iff_forall {P : Declaration → Prop} {ds : List Declaration} :
    Everywhere P ds ↔ ∀ d ∈ ds, P d ∧ Everywhere P d.members := by
  induction ds with
  | nil => exact ⟨fun _ d h => by simp at h, fun _ => everywhere_nil⟩
  | cons d ds ih => rw [everywhere_cons, ih, List.forall_mem_cons, and_assoc]

end Declaration

end ApiPages
