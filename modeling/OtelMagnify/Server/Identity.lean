import OtelMagnify.Lib.GoString
import OtelMagnify.Server.Fingerprint

/-! When a fingerprint tells workloads apart. The parts of an identity are joined with bars and
hashed; a part that itself holds a bar can be cut elsewhere, and then agents with different parts
have one identity. -/
namespace OtelMagnify.Server
open Sha256

inductive Identity where
  | k8s (cluster ns kind name : String)
  | host (serviceName hostName : String)
  | uid (instanceUID : String)
  deriving DecidableEq, Repr

namespace Identity

def raw : Identity → String
  | k8s cluster ns kind name => "k8s|" ++ cluster ++ "|" ++ ns ++ "|" ++ kind ++ "|" ++ name
  | host serviceName hostName => "host|" ++ serviceName ++ "|" ++ hostName
  | uid instanceUID => "uid|" ++ instanceUID

def result : Identity → FingerprintResult
  | k8s cluster ns kind name =>
    { id := hash24 (k8s cluster ns kind name).raw, source := "k8s"
      keys := [("cluster", cluster), ("namespace", ns), ("kind", kind), ("name", name)] }
  | host serviceName hostName =>
    { id := hash24 (host serviceName hostName).raw, source := "host"
      keys := [("service.name", serviceName), ("host.name", hostName)] }
  | uid instanceUID =>
    { id := hash24 (uid instanceUID).raw, source := "uid"
      keys := [("instance_uid", instanceUID)] }

def Valid : Identity → Prop
  | k8s cluster ns kind name =>
    cluster ≠ "" ∧ ns ≠ "" ∧ kind ∈ k8sWorkloadAttrs.map Prod.snd ∧ name ≠ ""
  | host _ hostName => hostName ≠ ""
  | uid _ => True

/-- After a bar, or at its beginning, the text holds a kind, a bar and something more. -/
def NamesKind (name : List Char) : Prop :=
  ∃ kind ∈ k8sWorkloadAttrs.map Prod.snd, ∃ pre post : List Char, post ≠ [] ∧
    '|' :: name = pre ++ '|' :: (kind.toList ++ '|' :: post)

/-- The parts can be read back from the text: a cluster holds no bar but at its beginning, a
namespace none but at its end, and a name does not name a kind; a service holds no bar, and a host
none but at its end. -/
def Readable : Identity → Prop
  | k8s cluster ns _ name =>
    '|' ∉ cluster.toList.tail ∧ '|' ∉ ns.toList.dropLast ∧ ¬ NamesKind name.toList
  | host serviceName hostName => '|' ∉ serviceName.toList ∧ '|' ∉ hostName.toList.dropLast
  | uid _ => True

variable {i : Identity}

@[simp] theorem id_result (i : Identity) : i.result.id = hash24 i.raw := by
  cases i <;> rfl

theorem result_injective {j : Identity} (hkeys : i.result.keys = j.result.keys) : i = j := by
  cases i <;> cases j <;> simp_all [result]

end Identity

/-- The parts that `Fingerprint` finds when no attribute names a Kubernetes workload. -/
def identityHost (attrs : Attrs) (instanceUID : String) : Identity :=
  if attr attrs "host.name" ≠ "" then .host (attr attrs "service.name") (attr attrs "host.name")
  else .uid instanceUID

def identity (attrs : Attrs) (instanceUID : String) : Identity :=
  if attr attrs "k8s.namespace.name" ≠ "" then
    match k8sWorkloadAttrs.find? fun w => attr attrs w.1 ≠ "" with
    | some w =>
      .k8s (if attr attrs "k8s.cluster.name" = "" then "unknown" else attr attrs "k8s.cluster.name")
        (attr attrs "k8s.namespace.name") w.2 (attr attrs w.1)
    | none => identityHost attrs instanceUID
  else identityHost attrs instanceUID

theorem fingerprintHost_eq (attrs : Attrs) (instanceUID : String) :
    fingerprintHost attrs instanceUID = (identityHost attrs instanceUID).result := by
  unfold fingerprintHost identityHost
  dsimp only
  split <;> rfl

theorem fingerprint_eq (attrs : Attrs) (instanceUID : String) :
    fingerprint attrs instanceUID = (identity attrs instanceUID).result := by
  unfold fingerprint identity
  dsimp only
  split
  · cases k8sWorkloadAttrs.find? fun w => attr attrs w.1 ≠ "" with
    | none => exact fingerprintHost_eq attrs instanceUID
    | some w => rfl
  · exact fingerprintHost_eq attrs instanceUID

theorem valid_identity (attrs : Attrs) (instanceUID : String) :
    (identity attrs instanceUID).Valid := by
  have hhost : (identityHost attrs instanceUID).Valid := by
    unfold identityHost
    split
    · assumption
    · trivial
  unfold identity
  split
  · rename_i hns
    cases hfind : k8sWorkloadAttrs.find? fun w => attr attrs w.1 ≠ "" with
    | none => exact hhost
    | some w =>
      have hname : attr attrs w.1 ≠ "" := by simpa using List.find?_some hfind
      refine ⟨?_, hns, List.mem_map_of_mem (List.mem_of_find?_eq_some hfind), hname⟩
      split
      · decide
      · assumption
  · exact hhost

/-- Every identity that the strategies can find is that of some agent. -/
theorem exists_identity_eq (hi : i.Valid) :
    ∃ attrs instanceUID, identity attrs instanceUID = i := by
  cases i with
  | k8s cluster ns kind name =>
    obtain ⟨hcluster, hns, hkind, hname⟩ := hi
    obtain ⟨w, hw, rfl⟩ := List.mem_map.mp hkind
    refine ⟨[("k8s.cluster.name", cluster), ("k8s.namespace.name", ns), (w.1, name)], "", ?_⟩
    simp only [k8sWorkloadAttrs, List.mem_cons, List.not_mem_nil, or_false] at hw
    rcases hw with rfl | rfl | rfl | rfl | rfl
    all_goals simp [identity, attr, k8sWorkloadAttrs, hcluster, hns, hname]
  | host serviceName hostName =>
    refine ⟨[("service.name", serviceName), ("host.name", hostName)], "", ?_⟩
    have hhost : hostName ≠ "" := hi
    simp [identity, identityHost, attr, hhost]
  | uid instanceUID => exact ⟨[], instanceUID, by simp [identity, identityHost, attr]⟩

namespace Identity

variable {kind : String} {x : List Char}

theorem bar_not_mem_kind (h : kind ∈ k8sWorkloadAttrs.map Prod.snd) : '|' ∉ kind.toList := by
  revert kind
  decide

theorem kind_ne_empty (h : kind ∈ k8sWorkloadAttrs.map Prod.snd) : kind.toList ≠ [] := by
  revert kind
  decide

theorem namesKind_of_eq {kind' : String} {name d name' : List Char}
    (hkind : kind ∈ k8sWorkloadAttrs.map Prod.snd) (hkind' : kind' ∈ k8sWorkloadAttrs.map Prod.snd)
    (hname' : name' ≠ [])
    (h : kind.toList ++ '|' :: name = d ++ '|' :: (kind'.toList ++ '|' :: name')) :
    NamesKind name := by
  rcases GoString.append_sep_cases h with ⟨-, rfl⟩ | ⟨e, hbar, -⟩ | ⟨e, -, rfl⟩
  · exact ⟨kind', hkind', [], name', hname', rfl⟩
  · exact absurd (hbar ▸ by simp) (bar_not_mem_kind hkind)
  · exact ⟨kind', hkind', '|' :: e, name', hname', rfl⟩

theorem eq_nil_of_bar_not_mem_dropLast {d : List Char} (h : '|' ∉ (x ++ '|' :: d).dropLast) :
    d = [] := by
  by_contra hd
  apply h
  rw [List.dropLast_append_of_ne_nil (by simp), List.dropLast_cons_of_ne_nil hd]
  simp

/-- The parts of a readable text, against any other way to cut it. -/
theorem k8s_cut {cluster ns name cluster' ns' name' : List Char} {kind' : String}
    (hcluster : '|' ∉ cluster.tail) (hns : '|' ∉ ns.dropLast) (hname : ¬ NamesKind name)
    (hkind : kind ∈ k8sWorkloadAttrs.map Prod.snd) (hkind' : kind' ∈ k8sWorkloadAttrs.map Prod.snd)
    (hcluster' : cluster' ≠ []) (hns' : ns' ≠ []) (hname' : name' ≠ [])
    (h : cluster ++ '|' :: (ns ++ '|' :: (kind.toList ++ '|' :: name)) =
      cluster' ++ '|' :: (ns' ++ '|' :: (kind'.toList ++ '|' :: name'))) :
    cluster = cluster' ∧ ns = ns' ∧ kind.toList = kind'.toList ∧ name = name' := by
  have hlater : ∀ d, kind.toList ++ '|' :: name ≠ d ++ '|' :: (kind'.toList ++ '|' :: name') :=
    fun d hd => hname (namesKind_of_eq hkind hkind' hname' hd)
  rcases GoString.append_sep_cases h with ⟨rfl, hrest⟩ | ⟨d, rfl, -⟩ | ⟨d, rfl, hrest⟩
  · -- the clusters end at the same bar
    rcases GoString.append_sep_cases hrest with ⟨rfl, hkinds⟩ | ⟨d, rfl, hkinds⟩ | ⟨d, rfl, hkinds⟩
    · obtain ⟨hk, hn⟩ :=
        GoString.append_sep_inj (bar_not_mem_kind hkind) (bar_not_mem_kind hkind') hkinds
      exact ⟨rfl, rfl, hk, hn⟩
    · cases eq_nil_of_bar_not_mem_dropLast hns
      obtain ⟨b, rest, hb⟩ := List.exists_cons_of_ne_nil (kind_ne_empty hkind')
      rw [hb] at hkinds
      obtain ⟨rfl, -⟩ := List.cons.inj hkinds
      exact absurd (hb ▸ List.mem_cons_self) (bar_not_mem_kind hkind')
    · exact absurd hkinds (hlater d)
  · -- the first cluster holds the bar that ends the second
    obtain ⟨b, rest, rfl⟩ := List.exists_cons_of_ne_nil hcluster'
    exact absurd (by simp) hcluster
  · -- the second cluster holds the bar that ends the first
    rcases GoString.append_sep_cases hrest with ⟨rfl, hkinds⟩ | ⟨e, rfl, hkinds⟩ | ⟨e, rfl, hkinds⟩
    · exact absurd hkinds (hlater ns')
    · cases eq_nil_of_bar_not_mem_dropLast hns
      obtain ⟨b, rest, rfl⟩ := List.exists_cons_of_ne_nil hns'
      obtain ⟨-, hkinds⟩ := List.cons.inj hkinds
      exact absurd hkinds.symm (hlater rest)
    · rw [← List.cons_append, ← List.append_assoc] at hkinds
      exact absurd hkinds (hlater _)

theorem host_cut {serviceName hostName serviceName' hostName' : List Char}
    (hservice : '|' ∉ serviceName) (hhost : '|' ∉ hostName.dropLast) (hhost' : hostName' ≠ [])
    (h : serviceName ++ '|' :: hostName = serviceName' ++ '|' :: hostName') :
    serviceName = serviceName' ∧ hostName = hostName' := by
  rcases GoString.append_sep_cases h with hsame | ⟨d, rfl, -⟩ | ⟨d, -, rfl⟩
  · exact hsame
  · exact absurd (by simp) hservice
  · exact absurd (eq_nil_of_bar_not_mem_dropLast hhost) hhost'

theorem toList_ne_nil {s : String} (h : s ≠ "") : s.toList ≠ [] := by
  simpa using h

/-- A readable identity shares its text with no other. -/
theorem eq_of_raw_eq {j : Identity} (hi : i.Valid) (hj : j.Valid) (hread : i.Readable)
    (h : i.raw = j.raw) : i = j := by
  have hlist := congrArg String.toList h
  cases i with
  | k8s cluster ns kind name =>
    cases j with
    | k8s cluster' ns' kind' name' =>
      obtain ⟨hcluster, hns, hname⟩ := hread
      obtain ⟨hcluster', hns', hkind', hname'⟩ := hj
      have hcut := k8s_cut hcluster hns hname hi.2.2.1 hkind' (toList_ne_nil hcluster')
        (toList_ne_nil hns') (toList_ne_nil hname') (by simpa [raw] using hlist)
      simpa [String.toList_inj] using hcut
    | host serviceName hostName | uid instanceUID => simp [raw] at hlist
  | host serviceName hostName =>
    cases j with
    | k8s cluster' ns' kind' name' | uid instanceUID => simp [raw] at hlist
    | host serviceName' hostName' =>
      have hcut := host_cut hread.1 hread.2 (toList_ne_nil hj) (by simpa [raw] using hlist)
      simpa [String.toList_inj] using hcut
  | uid instanceUID =>
    cases j with
    | k8s cluster' ns' kind' name' | host serviceName hostName => simp [raw] at hlist
    | uid instanceUID' => simpa [raw, String.toList_inj] using hlist

theorem exists_of_bar_mem_dropLast (h : '|' ∈ x.dropLast) : ∃ a b, b ≠ [] ∧ x = a ++ '|' :: b := by
  obtain ⟨a, b, hab⟩ := List.append_of_mem h
  have hx : x ≠ [] := by
    rintro rfl
    cases h
  refine ⟨a, b ++ [x.getLast hx], by simp, ?_⟩
  rw [← List.cons_append, ← List.append_assoc, ← hab, List.dropLast_append_getLast]

theorem exists_of_bar_mem_tail (h : '|' ∈ x.tail) : ∃ a b, a ≠ [] ∧ x = a ++ '|' :: b := by
  cases x with
  | nil => cases h
  | cons c x =>
    obtain ⟨a, b, rfl⟩ := List.append_of_mem h
    exact ⟨c :: a, b, by simp, rfl⟩

theorem ofList_ne_empty {l : List Char} (h : l ≠ []) : String.ofList l ≠ "" := by
  simpa [← String.toList_inj] using h

/-- An identity that cannot be read back shares its text with another one. -/
theorem exists_ne_raw_eq (hi : i.Valid) (hread : ¬ i.Readable) :
    ∃ j : Identity, j.Valid ∧ j.raw = i.raw ∧ j ≠ i := by
  cases i with
  | k8s cluster ns kind name =>
    obtain ⟨hcluster, hns, hkind, hname⟩ := hi
    simp only [Readable, not_and_or, not_not] at hread
    rcases hread with hbar | hbar | ⟨kind', hkind', pre, post, hpost, hcut⟩
    · obtain ⟨a, b, ha, hab⟩ := exists_of_bar_mem_tail hbar
      refine ⟨.k8s (String.ofList a) (String.ofList (b ++ '|' :: ns.toList)) kind name,
        ⟨ofList_ne_empty ha, ofList_ne_empty (by simp), hkind, hname⟩, ?_, ?_⟩
      · simp [raw, ← String.toList_inj, hab]
      · simp [← String.toList_inj, hab]
    · obtain ⟨a, b, hb, hab⟩ := exists_of_bar_mem_dropLast hbar
      refine ⟨.k8s (String.ofList (cluster.toList ++ '|' :: a)) (String.ofList b) kind name,
        ⟨ofList_ne_empty (by simp), ofList_ne_empty hb, hkind, hname⟩, ?_, ?_⟩
      · simp [raw, ← String.toList_inj, hab]
      · simp [← String.toList_inj]
    · refine ⟨.k8s cluster (String.ofList (ns.toList ++ '|' :: (kind.toList ++ pre))) kind'
        (String.ofList post), ⟨hcluster, ofList_ne_empty (by simp), hkind', ofList_ne_empty hpost⟩,
        ?_, ?_⟩
      · simp [raw, ← String.toList_inj, hcut]
      · simp [← String.toList_inj]
  | host serviceName hostName =>
    simp only [Readable, not_and_or, not_not] at hread
    rcases hread with hbar | hbar
    · obtain ⟨a, b, hab⟩ := List.append_of_mem hbar
      refine ⟨.host (String.ofList a) (String.ofList (b ++ '|' :: hostName.toList)),
        ofList_ne_empty (by simp), ?_, ?_⟩
      · simp [raw, ← String.toList_inj, hab]
      · simp [← String.toList_inj, hab]
    · obtain ⟨a, b, hb, hab⟩ := exists_of_bar_mem_dropLast hbar
      refine ⟨.host (String.ofList (serviceName.toList ++ '|' :: a)) (String.ofList b),
        ofList_ne_empty hb, ?_, ?_⟩
      · simp [raw, ← String.toList_inj, hab]
      · simp [← String.toList_inj]
  | uid instanceUID => exact absurd trivial hread

end Identity

/-- The truncated SHA-256 tells the two texts apart. -/
def NoCollision (raw raw' : String) : Prop := hash24 raw = hash24 raw' → raw = raw'

/-- Where the hash does not collide, an agent shares its identity only with agents of the same
source and keys exactly when its identity can be read back from its text. -/
theorem fingerprint_injective_iff (attrs : Attrs) (instanceUID : String) :
    (∀ attrs' instanceUID',
      NoCollision (identity attrs instanceUID).raw (identity attrs' instanceUID').raw →
      (fingerprint attrs instanceUID).id = (fingerprint attrs' instanceUID').id →
      (fingerprint attrs instanceUID).source = (fingerprint attrs' instanceUID').source ∧
        (fingerprint attrs instanceUID).keys = (fingerprint attrs' instanceUID').keys) ↔
      (identity attrs instanceUID).Readable := by
  constructor
  · intro hinj
    by_contra hread
    obtain ⟨j, hvalid, hraw, hne⟩ :=
      Identity.exists_ne_raw_eq (valid_identity attrs instanceUID) hread
    obtain ⟨attrs', instanceUID', rfl⟩ := exists_identity_eq hvalid
    have hid : (fingerprint attrs instanceUID).id = (fingerprint attrs' instanceUID').id := by
      rw [fingerprint_eq, fingerprint_eq, Identity.id_result, Identity.id_result, hraw]
    obtain ⟨-, hkeys⟩ := hinj attrs' instanceUID' (fun _ => hraw.symm) hid
    rw [fingerprint_eq, fingerprint_eq] at hkeys
    exact hne (Identity.result_injective hkeys).symm
  · intro hread attrs' instanceUID' hhash hid
    rw [fingerprint_eq, fingerprint_eq, Identity.id_result, Identity.id_result] at hid
    have hsame := Identity.eq_of_raw_eq (valid_identity attrs instanceUID)
      (valid_identity attrs' instanceUID') hread (hhash hid)
    rw [fingerprint_eq, fingerprint_eq, hsame]
    exact ⟨rfl, rfl⟩

/-- Two agents of different services on different hosts. -/
theorem fingerprint_merges_hosts :
    (fingerprint [("service.name", "a"), ("host.name", "b|c")] "u").id =
      (fingerprint [("service.name", "a|b"), ("host.name", "c")] "v").id ∧
    (fingerprint [("service.name", "a"), ("host.name", "b|c")] "u").keys ≠
      (fingerprint [("service.name", "a|b"), ("host.name", "c")] "v").keys := by
  simp only [fingerprint_eq, Identity.id_result]
  have hraw : (identity [("service.name", "a"), ("host.name", "b|c")] "u").raw =
      (identity [("service.name", "a|b"), ("host.name", "c")] "v").raw := by decide
  exact ⟨congrArg hash24 hraw, by decide⟩

end OtelMagnify.Server
