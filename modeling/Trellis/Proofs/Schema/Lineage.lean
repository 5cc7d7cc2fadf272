import Mathlib.Data.List.Chain
import Mathlib.Data.List.Nodup
import Trellis.Schema.Build

/-!
Ancestors of classes.

A class extends the declared class that its superclass names.  Going up from every class must stay
within the declared classes and must never come to a name for the second time.  The walk that
collects the ancestors of a class comes to an end in every case; it succeeds exactly where going up
does, and then it has found the classes between the topmost one and the class itself.
-/

namespace Trellis.Schema

structure Extends (classes : List Class) (declared parent : Class) : Prop where
  member : parent ∈ classes
  named : declared.superclass = some parent.name

/-- The list holds the ancestors of the class, topmost first, and then the class itself. -/
inductive IsLineage (classes : List Class) : Class → List Class → Prop
  | top {declared : Class} (noParent : declared.superclass = none) : IsLineage classes declared [declared]
  | extending {declared parent : Class} {above : List Class} (up : Extends classes declared parent)
      (lineage : IsLineage classes parent above) : IsLineage classes declared (above ++ [declared])

def StaysDeclared (classes : List Class) : Prop :=
  ∀ declared ∈ classes, ∀ parent, declared.superclass = some parent →
    ∃ next ∈ classes, next.name = parent

/-- Going up from a declared class, however far, comes to no name twice. -/
def NeverRevisits (classes : List Class) : Prop :=
  ∀ declared ∈ classes, ∀ above, (declared :: above).IsChain (Extends classes) →
    ((declared :: above).map (·.name)).Nodup

variable {classes : List Class}

/-! ### Finding classes by name -/

theorem find?_name_eq_some {name : String} {found : Class}
    (foundEq : classes.find? (·.name == name) = some found) : found ∈ classes ∧ found.name = name :=
  ⟨List.mem_of_find?_eq_some foundEq, by simpa using List.find?_some foundEq⟩

theorem find?_of_nodup_map {α : Type} {elements : List α} {name : α → String}
    (distinct : (elements.map name).Nodup) {element : α} (member : element ∈ elements) :
    elements.find? (name · == name element) = some element := by
  cases foundEq : elements.find? (name · == name element) with
  | none =>
      have absent := List.find?_eq_none.1 foundEq element member
      simp at absent
  | some found =>
      have same : name found = name element := by simpa using List.find?_some foundEq
      rw [List.inj_on_of_nodup_map distinct (List.mem_of_find?_eq_some foundEq) member same]

theorem Extends.unique (distinct : (classes.map (·.name)).Nodup) {declared parent parent' : Class}
    (up : Extends classes declared parent) (up' : Extends classes declared parent') :
    parent = parent' := by
  have same := up.named.symm.trans up'.named
  exact List.inj_on_of_nodup_map distinct up.member up'.member (Option.some.inj same)

/-! ### Lineages -/

theorem IsLineage.eq (distinct : (classes.map (·.name)).Nodup) {declared : Class}
    {lineage lineage' : List Class} (is : IsLineage classes declared lineage)
    (is' : IsLineage classes declared lineage') : lineage = lineage' := by
  induction is generalizing lineage' with
  | top noParent =>
      cases is' with
      | top _ => rfl
      | extending up _ =>
          rw [up.named] at noParent
          cases noParent
  | extending up _ ih =>
      cases is' with
      | top noParent =>
          rw [up.named] at noParent
          cases noParent
      | extending up' above' =>
          rw [← up.unique distinct up'] at above'
          rw [ih above']

theorem IsLineage.prefix_of_chain (distinct : (classes.map (·.name)).Nodup) {declared : Class}
    {lineage : List Class} (is : IsLineage classes declared lineage) {above : List Class}
    (chain : (declared :: above).IsChain (Extends classes)) : declared :: above <+: lineage.reverse := by
  induction is generalizing above with
  | @top declared noParent =>
      cases above with
      | nil => exact List.prefix_refl [declared]
      | cons next further =>
          have up := (List.isChain_cons_cons.1 chain).1
          rw [up.named] at noParent
          cases noParent
  | @extending declared parent _ up _ ih =>
      rw [List.reverse_append, List.reverse_singleton, List.singleton_append,
        List.cons_prefix_cons]
      refine ⟨rfl, ?_⟩
      cases above with
      | nil => exact List.nil_prefix
      | cons next further =>
          obtain ⟨up', chain⟩ := List.isChain_cons_cons.1 chain
          rw [← up.unique distinct up'] at chain ⊢
          exact ih chain

/-! ### The walk up -/

section Walk

variable {path below : List Class} {current next : Class} {parent : String}

private theorem lineageFrom_none (noParent : current.superclass = none) :
    lineageFrom classes path current = .ok path := by
  rw [lineageFrom, noParent]

private theorem lineageFrom_missing (parentEq : current.superclass = some parent)
    (missing : classes.find? (·.name == parent) = none) :
    lineageFrom classes path current = .error (.unknownSuperclass current.name parent) := by
  rw [lineageFrom, parentEq]
  simp only
  split
  · rfl
  · rename_i found
    rw [missing] at found
    cases found

private theorem lineageFrom_next (parentEq : current.superclass = some parent)
    (nextEq : classes.find? (·.name == parent) = some next) :
    lineageFrom classes path current =
      if path.any (·.name == next.name) then
        .error (.inheritanceCycle (path.reverse.map (·.name) ++ [next.name]))
      else lineageFrom classes (next :: path) next := by
  rw [lineageFrom, parentEq]
  simp only
  split
  · rename_i missing
    rw [nextEq] at missing
    cases missing
  · rename_i found
    rw [nextEq] at found
    cases found
    rfl

private theorem extends_of_find? (parentEq : current.superclass = some parent)
    (nextEq : classes.find? (·.name == parent) = some next) : Extends classes current next := by
  obtain ⟨member, same⟩ := find?_name_eq_some nextEq
  exact ⟨member, by rw [parentEq, same]⟩

theorem Extends.chain (up : Extends classes current next)
    (climbs : (current :: below).reverse.IsChain (Extends classes)) :
    (next :: current :: below).reverse.IsChain (Extends classes) := by
  rw [List.reverse_cons]
  refine List.isChain_append.2 ⟨climbs, .singleton next, ?_⟩
  intro last lastEq first firstEq
  rw [List.reverse_cons, List.getLast?_concat] at lastEq
  cases lastEq
  cases firstEq
  exact up

private theorem lineageFrom_isLineage {lineage : List Class} (distinct : (path.map (·.name)).Nodup)
    (walk : lineageFrom classes path current = .ok lineage) :
    ∃ above, lineage = above ++ path ∧ IsLineage classes current (above ++ [current]) ∧
      (lineage.map (·.name)).Nodup := by
  induction path, current using lineageFrom.induct classes with
  | case1 path current noParent =>
      rw [lineageFrom_none noParent] at walk
      cases walk
      exact ⟨[], rfl, .top noParent, distinct⟩
  | case2 path current parent parentEq missing =>
      rw [lineageFrom_missing parentEq missing] at walk
      cases walk
  | case3 path current parent parentEq next nextEq repeated =>
      rw [lineageFrom_next parentEq nextEq, if_pos repeated] at walk
      cases walk
  | case4 path current parent parentEq next nextEq fresh _ ih =>
      rw [lineageFrom_next parentEq nextEq, if_neg fresh] at walk
      have distinctNext : ((next :: path).map (·.name)).Nodup := by
        rw [List.map_cons, List.nodup_cons]
        refine ⟨?_, distinct⟩
        intro member
        obtain ⟨earlier, isEarlier, same⟩ := List.mem_map.1 member
        exact fresh (List.any_eq_true.2 ⟨earlier, isEarlier, beq_iff_eq.2 same⟩)
      obtain ⟨above, lineageEq, is, names⟩ := ih distinctNext walk
      refine ⟨above ++ [next], ?_, .extending (extends_of_find? parentEq nextEq) is, names⟩
      rw [lineageEq, List.append_assoc, List.singleton_append]

/-- Where going up does no harm, the walk succeeds: it can neither miss a class nor come back. -/
private theorem lineageFrom_succeeds (stays : StaysDeclared classes) (never : NeverRevisits classes)
    (pathEq : path = current :: below) (members : ∀ met ∈ path, met ∈ classes)
    (climbs : path.reverse.IsChain (Extends classes)) :
    ∃ lineage, lineageFrom classes path current = .ok lineage := by
  induction path, current using lineageFrom.induct classes generalizing below with
  | case1 path current noParent => exact ⟨path, lineageFrom_none noParent⟩
  | case2 path current parent parentEq missing =>
      have isDeclared : current ∈ classes := members current (by rw [pathEq]; exact List.mem_cons_self)
      obtain ⟨next, nextMember, nextName⟩ := stays current isDeclared parent parentEq
      have absent := List.find?_eq_none.1 missing next nextMember
      simp [nextName] at absent
  | case3 path current parent parentEq next nextEq repeated =>
      have up := extends_of_find? parentEq nextEq
      have further : (next :: path).reverse.IsChain (Extends classes) := by
        rw [pathEq] at climbs ⊢
        exact up.chain climbs
      have wayMembers : ∀ met ∈ (next :: path).reverse, met ∈ classes := by
        intro met member
        exact List.forall_mem_cons.2 ⟨up.member, members⟩ met (List.mem_reverse.1 member)
      cases wayEq : (next :: path).reverse with
      | nil => simp at wayEq
      | cons first rest =>
          rw [wayEq] at further wayMembers
          have distinct := never first (wayMembers first List.mem_cons_self) rest further
          rw [← wayEq, List.map_reverse, List.nodup_reverse, List.map_cons, List.nodup_cons] at distinct
          obtain ⟨earlier, isEarlier, same⟩ := List.any_eq_true.1 repeated
          rw [beq_iff_eq] at same
          exact absurd (List.mem_map.2 ⟨earlier, isEarlier, same⟩) distinct.1
  | case4 path current parent parentEq next nextEq fresh _ ih =>
      have up := extends_of_find? parentEq nextEq
      have further : (next :: path).reverse.IsChain (Extends classes) := by
        rw [pathEq] at climbs ⊢
        exact up.chain climbs
      obtain ⟨lineage, walk⟩ := ih rfl (List.forall_mem_cons.2 ⟨up.member, members⟩) further
      refine ⟨lineage, ?_⟩
      rw [lineageFrom_next parentEq nextEq, if_neg fresh]
      exact walk

end Walk

/-! ### Lineages of all classes -/

theorem lineage_isLineage {declarations : Declarations} {declared : Class} {lineage : List Class}
    (walk : declarations.lineage declared = .ok lineage) :
    IsLineage declarations.classes declared lineage ∧ (lineage.map (·.name)).Nodup := by
  have distinct : (([declared] : List Class).map (·.name)).Nodup := List.nodup_singleton _
  obtain ⟨above, lineageEq, is, names⟩ := lineageFrom_isLineage distinct walk
  rw [← lineageEq] at is
  exact ⟨is, names⟩

theorem exists_parent_of_lineage {declarations : Declarations} {declared : Class} {lineage : List Class}
    (walk : declarations.lineage declared = .ok lineage) {parent : String}
    (parentEq : declared.superclass = some parent) :
    ∃ next ∈ declarations.classes, next.name = parent := by
  cases (lineage_isLineage walk).1 with
  | top noParent =>
      rw [parentEq] at noParent
      cases noParent
  | extending up _ =>
      exact ⟨_, up.member, Option.some.inj (up.named.symm.trans parentEq)⟩

theorem nodup_of_lineage {declarations : Declarations}
    (distinct : (declarations.classes.map (·.name)).Nodup) {declared : Class} {lineage : List Class}
    (walk : declarations.lineage declared = .ok lineage) {above : List Class}
    (chain : (declared :: above).IsChain (Extends declarations.classes)) :
    ((declared :: above).map (·.name)).Nodup := by
  obtain ⟨is, names⟩ := lineage_isLineage walk
  have within := (is.prefix_of_chain distinct chain).sublist.map (·.name)
  rw [List.map_reverse] at within
  exact within.nodup (List.nodup_reverse.2 names)

theorem lineage_succeeds {declarations : Declarations} (stays : StaysDeclared declarations.classes)
    (never : NeverRevisits declarations.classes) {declared : Class}
    (member : declared ∈ declarations.classes) :
    ∃ lineage, declarations.lineage declared = .ok lineage := by
  refine lineageFrom_succeeds stays never rfl ?_ (.singleton declared)
  intro met isMet
  rw [List.mem_singleton.1 isMet]
  exact member

end Trellis.Schema
