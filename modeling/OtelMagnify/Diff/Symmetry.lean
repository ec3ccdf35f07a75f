import OtelMagnify.Diff.Redaction

/-! `reflect.DeepEqual` on decoded values is symmetric, so the walk over two configurations finds
the same fields in both directions. -/
namespace OtelMagnify.Diff
open Yaml GoString

variable {env : Environment}

theorem doubleEqual_comm (f g : Double) : doubleEqual f g = doubleEqual g f := by
  cases f <;> cases g <;> try rfl
  · rw [doubleEqual, doubleEqual]
    exact decide_eq_decide.mpr eq_comm
  · rw [doubleEqual, doubleEqual, Bool.eq_iff_iff]
    grind

theorem keyEqual_comm (k k' : Value) : keyEqual k k' = keyEqual k' k := by
  cases k <;> cases k' <;> simp only [keyEqual] <;>
    first | exact doubleEqual_comm _ _ | exact decide_eq_decide.mpr eq_comm

mutual

theorem deepEqual_comm (v w : Value) : deepEqual v w = deepEqual w v := by
  cases v with
  | list l =>
    cases w with
    | list l' =>
      rw [deepEqual, deepEqual]
      exact deepEqualItems_comm l l'
    | _ => simp [deepEqual]
  | obj m =>
    cases w with
    | obj m' =>
      rw [deepEqual, deepEqual]
      exact deepEqualFields_comm m m'
    | _ => simp [deepEqual]
  | table m =>
    cases w with
    | table m' =>
      rw [deepEqual, deepEqual]
      exact deepEqualPairs_comm m m'
    | _ => simp [deepEqual]
  | float f =>
    cases w with
    | float g =>
      rw [deepEqual, deepEqual]
      exact doubleEqual_comm f g
    | _ => simp [deepEqual]
  | _ => cases w <;> simp [deepEqual, eq_comm]

theorem deepEqualItems_comm (l l' : Values) : deepEqualItems l l' = deepEqualItems l' l := by
  match l, l' with
  | .nil, .nil => rfl
  | .nil, .cons w l' => rfl
  | .cons v l, .nil => rfl
  | .cons v l, .cons w l' =>
    rw [deepEqualItems, deepEqualItems, deepEqual_comm v w, deepEqualItems_comm l l']

theorem deepEqualFields_comm (m m' : Fields) : deepEqualFields m m' = deepEqualFields m' m := by
  match m, m' with
  | .nil, .nil => rfl
  | .nil, .cons key w m' => rfl
  | .cons key v m, .nil => rfl
  | .cons key v m, .cons key' w m' =>
    rw [deepEqualFields, deepEqualFields, deepEqual_comm v w, deepEqualFields_comm m m',
      decide_eq_decide.mpr eq_comm]

theorem deepEqualPairs_comm (m m' : Pairs) : deepEqualPairs m m' = deepEqualPairs m' m := by
  match m, m' with
  | .nil, .nil => rfl
  | .nil, .cons key w m' => rfl
  | .cons key v m, .nil => rfl
  | .cons key v m, .cons key' w m' =>
    rw [deepEqualPairs, deepEqualPairs, keyEqual_comm key, deepEqual_comm v w,
      deepEqualPairs_comm m m']

end

section Walk

def FieldChange.Dual (f g : FieldChange) : Prop :=
  g.path = f.path ∧ g.before = f.after ∧ g.after = f.before

theorem unionKeys_comm (m m' : Fields) : unionKeys m m' = unionKeys m' m := by
  have hsorted (m m' : Fields) : (unionKeys m m').Pairwise (· ≤ ·) :=
    List.pairwise_insertionSort _ _
  have hperm : (m.keys ++ m'.keys).dedup.Perm (m'.keys ++ m.keys).dedup :=
    List.perm_append_comm.dedup
  exact List.Perm.eq_of_pairwise (fun _ _ _ _ => le_antisymm) (hsorted m m') (hsorted m' m)
    ((List.perm_insertionSort _ _).trans (hperm.trans (List.perm_insertionSort _ _).symm))

theorem fieldChange_dual (b t : Value) (path : GoString) :
    List.Forall₂ FieldChange.Dual (fieldChange env path b t) (fieldChange env path t b) := by
  rw [fieldChange, fieldChange, deepEqual_comm t b]
  split
  · exact .nil
  · exact .cons ⟨rfl, rfl, rfl⟩ .nil

theorem walkDiff_dual (env : Environment) (b t : Value) (path : GoString) :
    List.Forall₂ FieldChange.Dual (walkDiff env path b t) (walkDiff env path t b) := by
  induction b using Value.memberInduction generalizing t path with
  | step b ih =>
    by_cases hmaps : b.asMap = none ∨ t.asMap = none
    · rw [walkDiff_of_not_obj hmaps, walkDiff_of_not_obj hmaps.symm]
      exact fieldChange_dual b t path
    · obtain ⟨bm, tm, rfl, rfl⟩ := exists_obj_of_not hmaps
      rw [walkDiff_obj, walkDiff_obj, unionKeys_comm tm bm]
      refine List.rel_flatMap (R := Eq) (List.forall₂_refl _) fun key key' heq => ?_
      cases heq
      exact ih bm key rfl _ _

end Walk

end OtelMagnify.Diff
