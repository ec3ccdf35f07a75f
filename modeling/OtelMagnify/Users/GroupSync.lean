import OtelMagnify.Lib.Checks
import OtelMagnify.Users.InitialAdmin

/-! Group synchronisation: `ReplaceUserGroups` of `internal/store/user_groups.go`, statement by
statement. -/
namespace OtelMagnify.Users

/-- The tables with the keys of their schema. -/
structure Directory where
  users : List String
  groups : List Group
  userGroups : List (String × String)
  groupIDs : (groups.map Group.id).Nodup
  groupNames : (groups.map Group.name).Nodup

inductive Statement where
  | getGroup (i : ℕ) | begin | checkUser | delete | insert (i : ℕ) | commit
  deriving DecidableEq, Repr

/-- What the database answers: the error of a statement that fails, whether a commit that fails
has taken effect, and the error of a row whose primary key is taken. -/
structure Answers where
  fails : Statement → Option String
  unacknowledged : Bool := false
  duplicateKey : String
  isPrint : Char → Bool

namespace Answers

variable (a : Answers)

def run (statement : Statement) (context : String) : Except String Unit :=
  match a.fails statement with
  | some err => .error ("replace user groups: " ++ context ++ ": " ++ err)
  | none => .ok ()

/-- The names from the one with the index `i` on, resolved by `GetGroupByName`. -/
def groupIDs (d : Directory) : ℕ → List String → Except String (List String)
  | _, [] => .ok []
  | i, name :: names => do
    let quoted := GoText.quote a.isPrint name
    a.run (.getGroup i) ("unknown group " ++ quoted ++ ": get group " ++ quoted)
    match d.groups.find? (·.name = name) with
    | none => .error ("replace user groups: unknown group " ++ quoted ++ ": group " ++ quoted ++
        ": sql: no rows in result set")
    | some g => return g.id :: (← groupIDs d (i + 1) names)

def insertAll (userID : String) :
    ℕ → List String → List (String × String) → Except String (List (String × String))
  | _, [], rows => .ok rows
  | i, gid :: gids, rows => do
    a.run (.insert i) "insert"
    if (userID, gid) ∈ rows then .error ("replace user groups: insert: " ++ a.duplicateKey)
    else insertAll userID (i + 1) gids ((userID, gid) :: rows)

/-- The rows that the transaction commits, and its error if the answer to the commit is lost. -/
def transaction (d : Directory) (userID : String) (gids : List String) :
    Except String (List (String × String) × Option String) := do
  a.run .begin "begin"
  a.run .checkUser "check user"
  if userID ∉ d.users then
    .error ("replace user groups: user " ++ userID ++ " not found: sql: no rows in result set")
  a.run .delete "delete existing"
  let rows ← a.insertAll userID 0 gids (d.userGroups.filter (·.1 ≠ userID))
  match a.run .commit "commit" with
  | .ok () => return (rows, none)
  | .error err => if a.unacknowledged then return (rows, some err) else .error err

/-- `ReplaceUserGroups`: the memberships behind it and its error. Without a commit the transaction
is rolled back. -/
def replaceUserGroups (d : Directory) (userID : String) (names : List String) :
    List (String × String) × Option String :=
  match (a.groupIDs d 0 names).bind (a.transaction d userID) with
  | .ok result => result
  | .error err => (d.userGroups, some err)

end Answers

/-- The memberships of the user are the groups that are named. -/
def Directory.IsSynced (d : Directory) (userID : String) (names : List String)
    (rows : List (String × String)) : Prop :=
  ∀ gid, (userID, gid) ∈ rows ↔ ∃ g ∈ d.groups, g.name ∈ names ∧ g.id = gid

def Directory.Knows (d : Directory) (name : String) : Prop := ∃ g ∈ d.groups, g.name = name

def Directory.idOf (d : Directory) (name : String) : String :=
  ((d.groups.find? (·.name = name)).map Group.id).getD ""

section Sync

variable {a : Answers} {d : Directory} {userID : String} {names gids : List String}
  {rows : List (String × String)}

theorem Directory.find?_name {g : Group} (hg : g ∈ d.groups) :
    d.groups.find? (·.name = g.name) = some g := by
  cases hfind : d.groups.find? (·.name = g.name) with
  | none => simpa using List.find?_eq_none.mp hfind g hg
  | some g' =>
    have hname : g'.name = g.name := by simpa using List.find?_some hfind
    rw [List.inj_on_of_nodup_map d.groupNames (List.mem_of_find?_eq_some hfind) hg hname]

theorem Directory.idOf_name {g : Group} (hg : g ∈ d.groups) : d.idOf g.name = g.id := by
  rw [idOf, find?_name hg]
  rfl

theorem Directory.nodup_idOf (hnames : ∀ name ∈ names, d.Knows name) :
    (names.map d.idOf).Nodup ↔ names.Nodup := by
  refine ⟨.of_map _, fun h => h.map_on ?_⟩
  intro x hx y hy hid
  obtain ⟨g, hg, rfl⟩ := hnames x hx
  obtain ⟨g', hg', rfl⟩ := hnames y hy
  rw [idOf_name hg, idOf_name hg'] at hid
  rw [List.inj_on_of_nodup_map d.groupIDs hg hg' hid]

theorem run_eq_ok (ha : ∀ statement, a.fails statement = none) (statement : Statement)
    (context : String) : a.run statement context = .ok () := by
  rw [Answers.run, ha]

theorem groupIDs_eq (ha : ∀ statement, a.fails statement = none) (i : ℕ)
    (hnames : ∀ name ∈ names, d.Knows name) : a.groupIDs d i names = .ok (names.map d.idOf) := by
  induction names generalizing i with
  | nil => rfl
  | cons name names ih =>
    obtain ⟨⟨g, hg, rfl⟩, hrest⟩ := List.forall_mem_cons.mp hnames
    simp only [Answers.groupIDs, run_eq_ok ha, d.find?_name hg, ih (i + 1) hrest, List.map_cons,
      d.idOf_name hg]
    rfl

theorem insertAll_eq (ha : ∀ statement, a.fails statement = none) (i : ℕ) :
    a.insertAll userID i gids rows =
      if gids.Nodup ∧ ∀ gid ∈ gids, (userID, gid) ∉ rows then
        .ok (gids.reverse.map (userID, ·) ++ rows)
      else .error ("replace user groups: insert: " ++ a.duplicateKey) := by
  induction gids generalizing i rows with
  | nil => simp [Answers.insertAll]
  | cons gid gids ih =>
    simp only [Answers.insertAll, run_eq_ok ha, bind, Except.bind, ih]
    by_cases hin : (userID, gid) ∈ rows
    · simp [hin]
    · have hiff : (gids.Nodup ∧ ∀ g ∈ gids, (userID, g) ∉ (userID, gid) :: rows) ↔
          ((gid :: gids).Nodup ∧ ∀ g ∈ gid :: gids, (userID, g) ∉ rows) := by
        simp only [List.mem_cons, Prod.mk.injEq, true_and, not_or, List.nodup_cons,
          forall_eq_or_imp, hin, not_false_eq_true]
        constructor
        · rintro ⟨hnodup, hall⟩
          exact ⟨⟨fun hg => (hall gid hg).1 rfl, hnodup⟩, fun g hg => (hall g hg).2⟩
        · rintro ⟨⟨hgid, hnodup⟩, hall⟩
          exact ⟨hnodup, fun g hg => ⟨fun he => hgid (he ▸ hg), hall g hg⟩⟩
      rw [if_neg hin, if_congr hiff rfl rfl]
      simp

theorem replaceUserGroups_eq (ha : ∀ statement, a.fails statement = none)
    (huser : userID ∈ d.users) (hnames : ∀ name ∈ names, d.Knows name) :
    a.replaceUserGroups d userID names = if names.Nodup then
      ((names.map d.idOf).reverse.map (userID, ·) ++ d.userGroups.filter (·.1 ≠ userID), none)
    else (d.userGroups, some ("replace user groups: insert: " ++ a.duplicateKey)) := by
  have hfree : ∀ gid ∈ names.map d.idOf, (userID, gid) ∉ d.userGroups.filter (·.1 ≠ userID) := by
    simp
  simp only [Answers.replaceUserGroups, groupIDs_eq ha 0 hnames, Except.bind, Answers.transaction,
    run_eq_ok ha, bind, insertAll_eq ha, d.nodup_idOf hnames]
  by_cases hnodup : names.Nodup
  · simp [hnodup, huser]
    rfl
  · simp [hnodup, huser]

theorem transaction_eq_ok {err : Option String}
    (h : a.transaction d userID gids = .ok (rows, err)) :
    err = none ∨ a.unacknowledged = true ∧ a.fails .commit ≠ none := by
  obtain ⟨-, -, h⟩ := Checks.bind_eq_ok.mp h
  obtain ⟨-, -, h⟩ := Checks.bind_eq_ok.mp h
  obtain ⟨-, h⟩ := Checks.check_eq_ok.mp h
  obtain ⟨-, -, h⟩ := Checks.bind_eq_ok.mp h
  obtain ⟨rows', -, h⟩ := Checks.bind_eq_ok.mp h
  split at h
  · cases h
    exact .inl rfl
  · next err' hcommit =>
    refine .inr ?_
    split at h
    · next hack => exact ⟨hack, fun hnone => by simp [Answers.run, hnone] at hcommit⟩
    · cases h

end Sync

def oneViewer : Directory where
  users := ["u"]
  groups := [⟨"g1", "viewer"⟩, ⟨"g2", "editor"⟩]
  userGroups := [("u", "g1")]
  groupIDs := by decide
  groupNames := by decide

def answersOk : Answers := ⟨fun _ => none, false, "UNIQUE constraint failed", fun _ => true⟩

end OtelMagnify.Users
