import OtelMagnify.Lib.Sha256

/-! The identity of a workload: `flattenAttrs` and `Fingerprint`. -/
namespace OtelMagnify.Server
open Sha256

/-- A map of attributes. A key that is absent reads as the empty text, as in Go. -/
abbrev Attrs := List (String × String)

def attr (attrs : Attrs) (key : String) : String :=
  ((attrs.find? (·.1 = key)).map Prod.snd).getD ""

def setAttr (attrs : Attrs) (key value : String) : Attrs :=
  attrs.filter (·.1 ≠ key) ++ [(key, value)]

/-- `flattenAttrs`. A pair whose value is missing or is not a string has the empty value. -/
def flattenAttrs (identifying nonIdentifying : List (String × String)) : Attrs :=
  (identifying ++ nonIdentifying).foldl
    (fun out kv => if kv.2 = "" then out else setAttr out kv.1 kv.2) []

structure FingerprintResult where
  id : String
  source : String
  keys : Attrs
  deriving DecidableEq, Repr

def k8sWorkloadAttrs : List (String × String) :=
  [("k8s.deployment.name", "deployment"), ("k8s.daemonset.name", "daemonset"),
    ("k8s.statefulset.name", "statefulset"), ("k8s.job.name", "job"),
    ("k8s.cronjob.name", "cronjob")]

def hash24 (s : String) : String := String.ofList ((hexSum256 s).toList.take 24)

/-- `Fingerprint` when no attribute names a Kubernetes workload. -/
def fingerprintHost (attrs : Attrs) (instanceUID : String) : FingerprintResult :=
  let serviceName := attr attrs "service.name"
  let host := attr attrs "host.name"
  if host ≠ "" then
    { id := hash24 ("host|" ++ serviceName ++ "|" ++ host)
      source := "host"
      keys := [("service.name", serviceName), ("host.name", host)] }
  else
    { id := hash24 ("uid|" ++ instanceUID)
      source := "uid"
      keys := [("instance_uid", instanceUID)] }

def fingerprint (attrs : Attrs) (instanceUID : String) : FingerprintResult :=
  let ns := attr attrs "k8s.namespace.name"
  if ns ≠ "" then
    match k8sWorkloadAttrs.find? fun w => attr attrs w.1 ≠ "" with
    | some w =>
      let name := attr attrs w.1
      let reported := attr attrs "k8s.cluster.name"
      let cluster := if reported = "" then "unknown" else reported
      { id := hash24 ("k8s|" ++ cluster ++ "|" ++ ns ++ "|" ++ w.2 ++ "|" ++ name)
        source := "k8s"
        keys := [("cluster", cluster), ("namespace", ns), ("kind", w.2), ("name", name)] }
    | none => fingerprintHost attrs instanceUID
  else fingerprintHost attrs instanceUID

theorem length_bigEndian (k n : ℕ) : (bigEndian k n).length = k := by
  induction k with
  | zero => rfl
  | succ k ih => simp [bigEndian, ih]

theorem length_sum256 (bs : List UInt8) : (sum256 bs).length = 32 := by
  simp [sum256, Working.bytes, length_bigEndian]

theorem length_toList_hexEncode (bs : List UInt8) :
    (hexEncode bs).toList.length = 2 * bs.length := by
  simp only [hexEncode, String.toList_ofList]
  induction bs with
  | nil => rfl
  | cons b bs ih =>
    simp only [List.flatMap_cons, List.length_append, ih, List.length_cons, List.length_nil]
    omega

theorem length_toList_hash24 (s : String) : (hash24 s).toList.length = 24 := by
  simp [hash24, hexSum256, length_toList_hexEncode, length_sum256]

theorem hash24_ne_empty (s : String) : hash24 s ≠ "" := by
  intro h
  have hlen := length_toList_hash24 s
  rw [h] at hlen
  cases hlen

/-- A workload always has an identity. -/
theorem fingerprint_id_ne_empty (attrs : Attrs) (uid : String) :
    (fingerprint attrs uid).id ≠ "" := by
  have hhost : (fingerprintHost attrs uid).id ≠ "" := by
    dsimp only [fingerprintHost]
    split <;> exact hash24_ne_empty _
  dsimp only [fingerprint]
  split
  · split
    · exact hash24_ne_empty _
    · exact hhost
  · exact hhost

theorem hexEncode_ne_empty {bs : List UInt8} (h : bs.length = 16) : hexEncode bs ≠ "" := by
  intro he
  have hlen := length_toList_hexEncode bs
  rw [he, h] at hlen
  cases hlen

end OtelMagnify.Server
