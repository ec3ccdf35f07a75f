import OtelMagnify.Lib.GoString
import Mathlib.Data.List.DropRight

/-! The path of a config in the text of a pull request: `gitOpsPRBodyWithSourceMarker` and
`gitOpsSourcePathFromMarker` of `internal/api/gitops_export.go`. -/
namespace OtelMagnify.Gitops

open GoString

/-- `path.Clean`, with the parts before the current one in reverse. -/
def cleanParts (rooted : Bool) (done : List GoString) (part : GoString) : List GoString :=
  if part = [] ∨ part = "." then done
  else if part ≠ ".." then part :: done
  else
    match done with
    | last :: before => if last = ".." then part :: done else before
    | [] => if rooted then [] else [part]

def clean (p : GoString) : GoString :=
  let rooted := p.hasPrefix "/"
  let parts := join "/" ((split '/' p).foldl (cleanParts rooted) []).reverse
  if rooted then "/" ++ parts else if parts = [] then "." else parts

def validateGitPath (p : GoString) : Bool :=
  p ≠ [] && !p.hasPrefix "/" && .char '\x00' ∉ p && .char '\\' ∉ p &&
    (split '/' p).all (· ≠ ("..": GoString)) &&
    clean p ≠ "." && clean p ≠ ".." && !(clean p).hasPrefix "../"

/-- What is left behind a literal of the pattern, which ignores the case of letters. -/
def strip : List Char → GoString → Option GoString
  | [], s => some s
  | _ :: _, [] => none
  | c :: lit, r :: s => if r = .char c ∨ r = .char c.toUpper then strip lit s else none

/-- `\s` -/
def isBlank (r : Rune) : Bool :=
  r ∈ [Rune.char '\t', .char '\n', .char '\x0c', .char '\r', .char ' ']

def inPath (r : Rune) : Bool := !isBlank r && r ≠ .char '<'

/-- The submatch of `gitOpsSourcePathMarkerRegexp` at the start of the text. What follows a
repetition of the pattern is outside its class, so that the longest repetition is the only one. -/
def matchHere (s : GoString) : Option GoString :=
  (strip "otel-magnify:".toList s).bind fun s =>
    (strip "path=".toList (s.dropWhile isBlank)).bind fun s =>
      if s.takeWhile inPath = [] then none else some (s.takeWhile inPath)

/-- `FindStringSubmatch`: the leftmost match. -/
def findMarker : GoString → Option GoString
  | [] => none
  | r :: s => (matchHere (r :: s)).or (findMarker s)

def opening : GoString := "<!-- otel-magnify: path="

def marker (path : GoString) : GoString := opening ++ path ++ " -->"

def gitOpsPRBodyWithSourceMarker (body path : GoString) : GoString :=
  if body.contains (marker path) then body
  else if trimSpace body = [] then marker path
  else trimRight '\n' body ++ "\n\n" ++ marker path

def gitOpsSourcePathFromMarker (body : GoString) : GoString :=
  match findMarker body with
  | none => []
  | some path => if validateGitPath path then path else []

variable {body path s u w : GoString} {lit : List Char}

/-- A text that ends a match: it is empty, or begins with a line break and goes on with something
other than a path. -/
structure Ends (w : GoString) : Prop where
  head : w = [] ∨ ∃ w', w = .char '\n' :: w'
  path : strip "path=".toList (w.dropWhile isBlank) = none

theorem strip_append (hw : Ends w) (hlit : '\n' ∉ lit) (hup : '\n' ∉ lit.map Char.toUpper)
    (u : GoString) : strip lit (u ++ w) = (strip lit u).map (· ++ w) := by
  induction lit generalizing u with
  | nil => rfl
  | cons c lit ih =>
    rw [List.mem_cons, not_or] at hlit
    rw [List.map_cons, List.mem_cons, not_or] at hup
    cases u with
    | nil => rcases hw.head with rfl | ⟨w', rfl⟩ <;> simp [strip, hlit.1, hup.1]
    | cons r u =>
      simp only [List.cons_append, strip]
      split
      · exact ih hlit.2 hup.2 u
      · rfl

theorem takeWhile_append (hw : Ends w) (u : GoString) :
    (u ++ w).takeWhile inPath = u.takeWhile inPath := by
  have hnil : w.takeWhile inPath = [] := by
    rcases hw.head with rfl | ⟨w', rfl⟩ <;> rfl
  rw [List.takeWhile_append, hnil, List.append_nil]
  split
  · next h => exact ((List.takeWhile_prefix _).eq_of_length h).symm
  · rfl

theorem matchHere_append (hw : Ends w) (u : GoString) : matchHere (u ++ w) = matchHere u := by
  rw [matchHere, matchHere, strip_append hw (by decide) (by decide)]
  cases strip "otel-magnify:".toList u with
  | none => rfl
  | some s =>
    simp only [Option.map_some, Option.bind_some, List.dropWhile_append]
    split
    · next h =>
      rw [hw.path, List.isEmpty_iff.mp h]
      rfl
    · rw [strip_append hw (by decide) (by decide)]
      cases strip "path=".toList (s.dropWhile isBlank) with
      | none => rfl
      | some s => simp only [Option.map_some, Option.bind_some, takeWhile_append hw]

theorem findMarker_append (hw : Ends w) (u : GoString) :
    findMarker (u ++ w) = (findMarker u).or (findMarker w) := by
  induction u with
  | nil => rfl
  | cons r u ih =>
    rw [List.cons_append, findMarker, ih, ← List.cons_append, matchHere_append hw, findMarker,
      Option.or_assoc]

theorem findMarker_skip (hu : ∀ r ∈ u, ¬ (r = .char 'o' ∨ r = .char 'O')) (s : GoString) :
    findMarker (u ++ s) = findMarker s := by
  induction u with
  | nil => rfl
  | cons r u ih =>
    obtain ⟨hr, hu⟩ := List.forall_mem_cons.mp hu
    have hnone : strip "otel-magnify:".toList (r :: (u ++ s)) = none := if_neg hr
    rw [List.cons_append, findMarker, matchHere, hnone, ih hu]
    rfl

theorem findMarker_of_matchHere (h : matchHere s = some path) : findMarker s = some path := by
  cases s with
  | nil => cases h
  | cons r s =>
    rw [findMarker, h]
    rfl

/-- Whatever is found is text that the pattern takes for a path. -/
theorem all_inPath_of_findMarker (h : findMarker s = some path) : path.all inPath = true := by
  induction s with
  | nil => cases h
  | cons r s ih =>
    rcases Option.or_eq_some_iff.mp h with h | ⟨-, h⟩
    · obtain ⟨s₁, -, h⟩ := Option.bind_eq_some_iff.mp h
      obtain ⟨s₂, -, h⟩ := Option.bind_eq_some_iff.mp h
      split at h <;> cases h
      exact List.all_takeWhile
    · exact ih h

theorem strip_self (lit : List Char) (s : GoString) :
    strip lit (lit.map .char ++ s) = some s := by
  induction lit with
  | nil => rfl
  | cons c lit ih => simpa [strip] using ih

theorem findMarker_opening (hs : s.takeWhile inPath ≠ []) :
    findMarker (opening ++ s) = some (s.takeWhile inPath) := by
  have hopening : opening = ofString "<!-- " ++ ("otel-magnify:".toList.map .char ++
      .char ' ' :: "path=".toList.map .char) := by decide +kernel
  have hblank : (Rune.char ' ' :: ("path=".toList.map .char ++ s)).dropWhile isBlank =
    "path=".toList.map .char ++ s := rfl
  rw [hopening, List.append_assoc, findMarker_skip (by decide)]
  apply findMarker_of_matchHere
  rw [List.append_assoc, matchHere, strip_self, Option.bind_some, List.cons_append,
    hblank, strip_self, Option.bind_some, if_neg hs]

theorem findMarker_marker (hpath : path.all inPath = true) (hne : path ≠ []) (s : GoString) :
    findMarker (marker path ++ s) = some path := by
  have htake : (path ++ ((" -->" : GoString) ++ s)).takeWhile inPath = path := by
    rw [List.takeWhile_append_of_pos (List.all_eq_true.mp hpath)]
    exact List.append_nil _
  rw [marker, List.append_assoc, List.append_assoc, findMarker_opening (by rwa [htake]), htake]

theorem findMarker_append_ne_none (h : findMarker s ≠ none) (u : GoString) :
    findMarker (u ++ s) ≠ none := by
  induction u with
  | nil => exact h
  | cons r u ih => exact fun hnone => ih (Option.or_eq_none_iff.mp hnone).2

theorem findMarker_of_trimSpace (h : trimSpace body = []) : findMarker body = none := by
  have hrest := List.rdropWhile_eq_nil_iff.mp h
  have hall : ∀ r ∈ body, Rune.isSpace r = true := by
    rw [← List.dropWhile_eq_nil_iff, ← List.dropWhile_idempotent]
    exact List.dropWhile_eq_nil_iff.mpr hrest
  rw [← List.append_nil body, findMarker_skip, findMarker]
  rintro r hr (rfl | rfl) <;> cases hall _ hr

theorem findMarker_trimRight (body : GoString) :
    findMarker (trimRight '\n' body) = findMarker body := by
  induction body using List.reverseRecOn with
  | nil => rfl
  | append_singleton s r ih =>
    by_cases hr : r = .char '\n'
    · subst hr
      have htrim : trimRight '\n' (s ++ [.char '\n']) = trimRight '\n' s :=
        List.rdropWhile_concat_pos _ _ _ rfl
      rw [htrim, ih, findMarker_append ⟨.inr ⟨[], rfl⟩, rfl⟩]
      exact Option.or_none.symm
    · exact congrArg findMarker (List.rdropWhile_concat_neg _ _ _ (by simpa using hr))

theorem ends_marker (path : GoString) : Ends ("\n\n" ++ marker path) := ⟨.inr ⟨_, rfl⟩, rfl⟩

theorem fromMarker_eq_iff (hvalid : validateGitPath path = true) (hne : path ≠ []) :
    gitOpsSourcePathFromMarker body = path ↔ findMarker body = some path := by
  unfold gitOpsSourcePathFromMarker
  cases findMarker body with
  | none => simpa using hne.symm
  | some found =>
    simp only [Option.some.injEq]
    constructor
    · intro h
      split at h
      · exact h
      · exact absurd h.symm hne
    · rintro rfl
      rw [if_pos hvalid]

/-- A valid path is read back exactly when it has no blank and no `<`, and what looks like a marker
in the body, at its first place, is one for the path. -/
theorem source_marker_iff (body path : GoString) (hvalid : validateGitPath path = true) :
    gitOpsSourcePathFromMarker (gitOpsPRBodyWithSourceMarker body path) = path ↔
      path.all inPath = true ∧ ∀ found, findMarker body = some found → found = path := by
  have hne : path ≠ [] := by
    rintro rfl
    cases hvalid
  rw [fromMarker_eq_iff hvalid hne]
  by_cases hpath : path.all inPath = true
  swap
  · exact iff_of_false (fun h => hpath (all_inPath_of_findMarker h)) fun h => hpath h.1
  simp only [hpath, true_and]
  unfold gitOpsPRBodyWithSourceMarker
  split
  · next h =>
    obtain ⟨u, v, huv⟩ := of_decide_eq_true h
    have hsome : findMarker body ≠ none := by
      rw [← huv, List.append_assoc]
      exact findMarker_append_ne_none (by simp [findMarker_marker hpath hne]) u
    obtain ⟨found, hfound⟩ := Option.ne_none_iff_exists'.mp hsome
    simp [hfound]
  split
  · next h =>
    have hmarker := findMarker_marker hpath hne []
    rw [List.append_nil] at hmarker
    simp [hmarker, findMarker_of_trimSpace h]
  · have hmarker : findMarker ("\n\n" ++ marker path) = some path := by
      rw [findMarker_skip (by decide), ← List.append_nil (marker path), findMarker_marker hpath hne]
    rw [List.append_assoc, findMarker_append (ends_marker path), findMarker_trimRight, hmarker]
    cases findMarker body <;> simp

theorem source_marker_collector :
    gitOpsSourcePathFromMarker (gitOpsPRBodyWithSourceMarker "Update" "otel/collector.yaml") =
      ("otel/collector.yaml" : GoString) :=
  (source_marker_iff "Update" "otel/collector.yaml" (by decide +kernel)).mpr
    ⟨by decide +kernel, fun _ h => by cases h.symm.trans (by decide +kernel : _ = none)⟩

/-- A path with a blank is valid, and is cut at the blank. -/
theorem source_marker_blank :
    validateGitPath "otel/my collector.yaml" = true ∧
      gitOpsSourcePathFromMarker (gitOpsPRBodyWithSourceMarker "Update" "otel/my collector.yaml") =
        ("otel/my" : GoString) := by
  decide +kernel

end OtelMagnify.Gitops
