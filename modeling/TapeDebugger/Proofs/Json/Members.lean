import Mathlib.Data.List.Induction
import Mathlib.Data.List.Nodup
import TapeDebugger.Json.Basic

/-!
# Members by name

However the members of an object are ordered, what is found under a name is the value
that was written under it last.
-/

namespace TapeDebugger

namespace Json

/-- A row of names with values. -/
abbrev Members := List (List UInt16 × Json)

variable {members other : Members} {name : List UInt16}

theorem lookup_cons_eq (entry : List UInt16 × Json) (rest : Members) (asked : List UInt16) :
    List.lookup asked (entry :: rest) =
      if asked = entry.1 then some entry.2 else rest.lookup asked := by
  by_cases same : asked = entry.1
  · rw [if_pos same, same, List.lookup_cons_self]
  · rw [if_neg same, List.lookup_cons, beq_false_of_ne same]

/-! ## Rows without a name that appears again -/

def Distinct (members : Members) : Prop :=
  (members.map Prod.fst).Nodup

theorem lookup_eq_some_iff (distinct : Distinct members) {value : Json} :
    members.lookup name = some value ↔ (name, value) ∈ members := by
  induction members with
  | nil => simp
  | cons entry rest ih =>
      obtain ⟨fresh, distinct⟩ := List.nodup_cons.mp distinct
      rw [lookup_cons_eq, List.mem_cons]
      by_cases same : name = entry.1
      · subst same
        have absent : (entry.1, value) ∉ rest := fun found =>
          fresh (List.mem_map.mpr ⟨_, found, rfl⟩)
        simp [absent, Prod.ext_iff, eq_comm]
      · simp [ih distinct, same, Prod.ext_iff]

/-- The order of the members does not matter to what is found under a name. -/
theorem lookup_of_perm (distinct : Distinct members) (perm : members.Perm other)
    (name : List UInt16) : members.lookup name = other.lookup name := by
  have distinctOther : Distinct other := (perm.map Prod.fst).nodup_iff.mp distinct
  refine Option.ext fun value => ?_
  rw [lookup_eq_some_iff distinct, lookup_eq_some_iff distinctOther, perm.mem_iff]

theorem canonical_perm (members : Members) : (canonical members).Perm members := by
  have sorted := List.mergeSort_perm
    (members.filter fun entry => (arrayIndex? entry.1).isSome) indexLe
  have others : (members.filter fun entry => (arrayIndex? entry.1).isNone) =
      members.filter fun entry => !(arrayIndex? entry.1).isSome := by
    simp only [Option.not_isSome]
  rw [canonical, others]
  exact (sorted.append_right _).trans (List.filter_append_perm _ members)

/-! ## Putting members -/

theorem any_name_iff :
    (members.any fun entry => entry.1 == name) = true ↔ name ∈ members.map Prod.fst := by
  simp

theorem map_fst_putMember (members : Members) (name : List UInt16) (value : Json) :
    (putMember members name value).map Prod.fst =
      if name ∈ members.map Prod.fst then members.map Prod.fst
      else members.map Prod.fst ++ [name] := by
  rw [putMember]
  simp only [any_name_iff]
  split_ifs with found
  · rw [List.map_map]
    refine List.map_congr_left fun entry _ => ?_
    by_cases same : entry.1 = name <;> simp [same]
  · rw [List.map_append, List.map_singleton]

theorem distinct_putMember (distinct : Distinct members) (name : List UInt16) (value : Json) :
    Distinct (putMember members name value) := by
  rw [Distinct, map_fst_putMember]
  split_ifs with found
  · exact distinct
  · exact List.nodup_append'.mpr ⟨distinct, List.nodup_singleton name,
      List.disjoint_singleton.mpr found⟩

/-- Members with a value in the place of the one that is there under a name. -/
def replaced (members : Members) (name : List UInt16) (value : Json) : Members :=
  members.map fun entry => if entry.1 == name then (name, value) else entry

theorem replaced_cons (entry : List UInt16 × Json) (rest : Members) (name : List UInt16)
    (value : Json) : replaced (entry :: rest) name value =
      (if entry.1 = name then (name, value) else entry) :: replaced rest name value := by
  simp only [replaced, List.map_cons, beq_iff_eq]

theorem lookup_replaced_self (found : name ∈ members.map Prod.fst) (value : Json) :
    (replaced members name value).lookup name = some value := by
  induction members with
  | nil => cases found
  | cons entry rest ih =>
      rw [replaced_cons]
      split_ifs with here
      · exact List.lookup_cons_self
      · rw [lookup_cons_eq, if_neg (Ne.symm here)]
        exact ih ((List.mem_cons.mp found).resolve_left (Ne.symm here))

theorem lookup_replaced_of_ne {asked : List UInt16} (differ : asked ≠ name) (members : Members)
    (value : Json) : (replaced members name value).lookup asked = members.lookup asked := by
  induction members with
  | nil => rfl
  | cons entry rest ih =>
      rw [replaced_cons]
      split_ifs with here
      · rw [lookup_cons_eq, if_neg differ, lookup_cons_eq, if_neg (here ▸ differ), ih]
      · rw [lookup_cons_eq, lookup_cons_eq, ih]

/-- The value that was put is found under its name, and under any other name what was there. -/
theorem lookup_putMember (members : Members) (name : List UInt16) (value : Json)
    (asked : List UInt16) :
    (putMember members name value).lookup asked =
      if asked = name then some value else members.lookup asked := by
  rw [putMember]
  simp only [any_name_iff]
  split_ifs with known same same
  · rw [same]
    exact lookup_replaced_self known value
  · exact lookup_replaced_of_ne same members value
  · subst same
    have absent : members.lookup asked = none := by
      refine List.lookup_eq_none_iff.mpr fun entry inside => bne_iff_ne.mpr ?_
      rintro rfl
      exact known (List.mem_map_of_mem inside)
    rw [List.lookup_append, absent, Option.none_or, List.lookup_cons_self]
  · rw [List.lookup_append, lookup_cons_eq, if_neg same, List.lookup_nil, Option.or_none]

/-! ## Written members -/

/-- Members as they are put one after another. -/
def collected (written : Members) : Members :=
  written.foldl (fun known entry => putMember known entry.1 entry.2) []

theorem distinct_collected (written : Members) : Distinct (collected written) := by
  refine List.foldlRecOn written _ List.nodup_nil ?_
  exact fun known distinct entry _ => distinct_putMember distinct entry.1 entry.2

theorem lookup_collected (written : Members) (name : List UInt16) :
    (collected written).lookup name = written.reverse.lookup name := by
  induction written using List.reverseRecOn with
  | nil => rfl
  | append_singleton written entry ih =>
      rw [collected, List.foldl_concat, List.reverse_concat, lookup_putMember, lookup_cons_eq]
      exact congrArg _ ih

theorem perm_of_ofMembers {written : Members} (denoted : ofMembers written = .object members) :
    (collected written).Perm members := by
  have canonical_eq : canonical (collected written) = members := Json.object.inj denoted
  rw [← canonical_eq]
  exact (canonical_perm _).symm

/-- No name of an object appears twice. -/
theorem distinct_of_ofMembers {written : Members} (denoted : ofMembers written = .object members) :
    Distinct members :=
  ((perm_of_ofMembers denoted).map Prod.fst).nodup_iff.mp (distinct_collected written)

/-- Under each name an object has the value that was written last. -/
theorem lookup_of_ofMembers {written : Members} (denoted : ofMembers written = .object members)
    (name : List UInt16) : members.lookup name = written.reverse.lookup name := by
  rw [← lookup_collected]
  exact (lookup_of_perm (distinct_collected written) (perm_of_ofMembers denoted) name).symm

end Json

end TapeDebugger
