import Mathlib
import TreeDigest.Report.Scan
import TreeDigest.Proofs.Json.Reading

/-!
The summary for programs tells everything about a scan.

What the summary tells about a node is read field by field, whatever the order of the fields: an
object in the order of its keys has under each key the value that was put there. A decoder of nodes
goes down the tree as the encoder does, so that induction on the snapshot inverts it.

* `Json.field?_sortedObject`: the order of the keys hides no field.
* `Snapshot.ofJson?_toJson`: a snapshot is read back from what is told about it.
* `Report.outcomeIn?_scanValue`: so is the outcome of a scan from its summary.
* `Report.scanJson_tells_all`: the text of the summary determines the outcome.
-/

namespace TreeDigest

/-! ### Fields -/

namespace Json

variable {fields : List (String × Json)} {key : String} {v : Json}

/-- **The order of the keys hides no field.** -/
lemma field?_sortedObject (hkeys : (fields.map (·.1)).Nodup) (hmem : (key, v) ∈ fields) :
    (sortedObject fields).field? key = some v := by
  have hperm := List.mergeSort_perm fields fun a b => Text.nameLe a.1 b.1
  obtain ⟨f, hf⟩ := Option.isSome_iff_exists.mp ((List.find?_isSome (p := fun f => f.1 == key)).mpr
    ⟨(key, v), List.mem_reverse.mpr (hperm.mem_iff.mpr hmem), beq_self_eq_true key⟩)
  have hkey : f.1 = key := by simpa using List.find?_some hf
  have hmem' : f ∈ fields := hperm.mem_iff.mp (List.mem_reverse.mp (List.mem_of_find?_eq_some hf))
  rw [sortedObject, field?, hf, List.inj_on_of_nodup_map hkeys hmem' hmem hkey]
  rfl

/-- It makes none up. -/
lemma field?_sortedObject_eq_none (hkey : key ∉ fields.map (·.1)) :
    (sortedObject fields).field? key = none := by
  rw [sortedObject, field?, Option.map_eq_none_iff, List.find?_eq_none]
  intro f hf heq
  exact hkey (List.mem_map.mpr ⟨f, List.mem_mergeSort.mp (List.mem_reverse.mp hf), by simpa using heq⟩)

/-- The text of a string. -/
def asText? : Json → Option String
  | .string s => some s
  | _ => none

/-- The number of an integer. -/
def asInteger? : Json → Option ℤ
  | .integer n => some n
  | _ => none

/-- The number of an integer that is not negative. -/
def asNatural? (v : Json) : Option ℕ := v.asInteger?.bind Int.toNat?

@[simp] lemma asNatural?_ofNat (n : ℕ) : (ofNat n).asNatural? = some n := rfl

end Json

/-! ### Nodes -/

namespace Digest

/-- The digits of a digest name it. -/
lemma ofHex?_hex (d : Digest) : ofHex? d.hex = some d := by
  rw [ofHex?, hex, Text.Hex.decode?_encode, Option.bind_some, ofBytes?, dif_pos d.length_toBytes]
  rfl

end Digest

namespace Report

/-- The access that a word is for. -/
def accessOf? (word : String) : Option Access :=
  if word = "direct" then some .direct else if word = "via_symlink" then some .viaSymlink else none

@[simp] lemma accessOf?_accessLabel (a : Access) : accessOf? (accessLabel a) = some a := by
  cases a <;> rfl

end Report

namespace Snapshot

/-- Path, name and access of a node, as its fields tell them. -/
def locationIn? (v : Json) : Option Location := do
  let path ← (← v.field? "path").asText?
  let name ← (← v.field? "name").asText?
  let access ← Report.accessOf? (← (← v.field? "access").asText?)
  return ⟨path, name, access⟩

/-- The digest of a node. -/
def digestIn? (v : Json) : Option Digest := do Digest.ofHex? (← (← v.field? "hash").asText?)

/-- The kind of a leaf of the given type. -/
def leafKindIn? (v : Json) (type : String) : Option LeafKind :=
  if type = "file" then do
    let length ← (← v.field? "length").asNatural?
    let modified ← (← v.field? "last_modified").asInteger?
    return .file ⟨length, modified⟩
  else if type = "missing" then some .missing
  else none

mutual
/-- The snapshot that is told about. -/
def ofJson? : Json → Option Snapshot
  | .object fields => do
    let v := Json.object fields
    let location ← locationIn? v
    let digest ← digestIn? v
    let type ← (← v.field? "type").asText?
    if type = "directory" then return .directory location digest (← childrenIn? fields)
    else return .leaf ⟨location, digest, ← leafKindIn? v type⟩
  | _ => none

/-- The snapshots that the field for the children tells about. -/
def childrenIn? : List (String × Json) → Option (List Snapshot)
  | [] => none
  | (key, v) :: fields => if key = "children" then ofItems? v else childrenIn? fields

/-- The snapshots that a list tells about. -/
def ofItems? : Json → Option (List Snapshot)
  | .array items => ofJsonAll? items
  | _ => none

/-- The snapshots that values tell about. -/
def ofJsonAll? : List Json → Option (List Snapshot)
  | [] => some []
  | v :: vs => do return (← ofJson? v) :: (← ofJsonAll? vs)
end

lemma childrenIn?_of_mem {fields : List (String × Json)} {v : Json}
    (hkeys : (fields.map (·.1)).Nodup) (hmem : ("children", v) ∈ fields) :
    childrenIn? fields = ofItems? v := by
  induction fields with
  | nil => cases hmem
  | cons f fields ih =>
      obtain ⟨key, w⟩ := f
      rw [List.map_cons, List.nodup_cons] at hkeys
      rw [childrenIn?]
      rcases List.mem_cons.mp hmem with hhere | hlater
      · cases hhere
        exact if_pos rfl
      · have hne : key ≠ "children" := by
          rintro rfl
          exact hkeys.1 (List.mem_map.mpr ⟨_, hlater, rfl⟩)
        rw [if_neg hne, ih hkeys.2 hlater]

/-! What a node tells is told under different keys, so every field is found. -/

/-- What a node tells according to its kind. -/
def ownFields : Snapshot → List (String × Json)
  | .leaf l => leafFields l.kind
  | .directory _ _ cs => [("children", .array (toJsonAll cs))]

lemma toJson_eq (s : Snapshot) : s.toJson = .sortedObject (commonFields s ++ ownFields s) := by
  cases s <;> (rw [toJson]; rfl)

lemma nodup_keys (s : Snapshot) : ((commonFields s ++ ownFields s).map (·.1)).Nodup := by
  cases s with
  | leaf l => cases hkind : l.kind <;> simp [commonFields, ownFields, leafFields, hkind]
  | directory l d cs => simp [commonFields, ownFields]

lemma field?_toJson (s : Snapshot) (key : String) (v : Json)
    (hmem : (key, v) ∈ commonFields s ++ ownFields s) : s.toJson.field? key = some v := by
  rw [toJson_eq, Json.field?_sortedObject (nodup_keys s) hmem]

lemma field?_hash_toJson (s : Snapshot) : s.toJson.field? "hash" = some (.string s.digest.hex) :=
  field?_toJson s _ _ (by simp [commonFields])

lemma field?_type_toJson (s : Snapshot) :
    s.toJson.field? "type" = some (.string (Report.kindLabel s)) :=
  field?_toJson s _ _ (by simp [commonFields])

lemma digestIn?_toJson (s : Snapshot) : digestIn? s.toJson = some s.digest := by
  simp [digestIn?, field?_hash_toJson, Json.asText?, Digest.ofHex?_hex]

lemma locationIn?_toJson (s : Snapshot) : locationIn? s.toJson = some s.location := by
  have hpath := field?_toJson s "path" (.string s.location.path) (by simp [commonFields])
  have hname := field?_toJson s "name" (.string s.location.name) (by simp [commonFields])
  have haccess := field?_toJson s "access" (.string (Report.accessLabel s.location.access))
    (by simp [commonFields])
  simp [locationIn?, hpath, hname, haccess, Json.asText?]

lemma leafKindIn?_toJson (l : Leaf) :
    leafKindIn? (toJson (.leaf l)) (Report.kindLabel (.leaf l)) = some l.kind := by
  obtain ⟨location, digest, kind⟩ := l
  cases kind with
  | missing => rfl
  | file facts =>
      have hfield := field?_toJson (.leaf ⟨location, digest, .file facts⟩)
      have hlength := hfield "length" (.ofNat facts.length) (by simp [ownFields, leafFields])
      have hmodified := hfield "last_modified" (.integer facts.modified)
        (by simp [ownFields, leafFields])
      simp [leafKindIn?, Report.kindLabel, hlength, hmodified, Json.asInteger?]

/-- The children of a directory are read where they are told about. -/
lemma childrenIn?_toJson {l : Location} {d : Digest} {cs : List Snapshot} {fields}
    (hfields : toJson (.directory l d cs) = .object fields) :
    childrenIn? fields = ofJsonAll? (toJsonAll cs) := by
  rw [toJson_eq, Json.sortedObject, Json.object.injEq] at hfields
  subst hfields
  have hperm := List.mergeSort_perm (commonFields (.directory l d cs) ++ ownFields (.directory l d cs))
    fun a b => Text.nameLe a.1 b.1
  have hchildren : ("children", Json.array (toJsonAll cs)) ∈ ownFields (.directory l d cs) :=
    List.mem_cons_self
  rw [childrenIn?_of_mem ((hperm.map (·.1)).nodup_iff.mpr (nodup_keys _))
    (hperm.mem_iff.mpr (List.mem_append_right _ hchildren)), ofItems?]

mutual
/-- **A snapshot is read back from what is told about it.** -/
theorem ofJson?_toJson : ∀ s : Snapshot, ofJson? s.toJson = some s
  | .leaf l => by
      have hleaf : Report.kindLabel (.leaf l) ≠ "directory" := by
        rw [Report.kindLabel]
        split <;> decide
      obtain ⟨fields, hfields⟩ : ∃ fields, toJson (.leaf l) = .object fields := ⟨_, by rw [toJson_eq]; rfl⟩
      rw [hfields, ofJson?, ← hfields]
      simp [locationIn?_toJson, digestIn?_toJson, field?_type_toJson, leafKindIn?_toJson, Json.asText?,
        hleaf, location, digest]
  | .directory l d cs => by
      obtain ⟨fields, hfields⟩ : ∃ fields, toJson (.directory l d cs) = .object fields :=
        ⟨_, by rw [toJson_eq]; rfl⟩
      have hchildren := childrenIn?_toJson hfields
      rw [ofJsonAll?_toJsonAll cs] at hchildren
      rw [hfields, ofJson?, ← hfields]
      simp [locationIn?_toJson, digestIn?_toJson, field?_type_toJson, hchildren, Json.asText?,
        Report.kindLabel, location, digest]

lemma ofJsonAll?_toJsonAll : ∀ ss : List Snapshot, ofJsonAll? (toJsonAll ss) = some ss
  | [] => rfl
  | s :: ss => by
      rw [toJsonAll, ofJsonAll?, ofJson?_toJson s, ofJsonAll?_toJsonAll ss]
      rfl
end

end Snapshot

/-! ### Outcomes -/

namespace ScanCounts

/-- The counters that an object tells. -/
def ofJson? (v : Json) : Option ScanCounts := do
  let count (key : String) : Option ℕ := do (← v.field? key).asNatural?
  return ⟨← count "directories", ← count "excluded_directories", ← count "files", ← count "missing",
    ← count "skipped_symlinks", ← count "skipped_special", ← count "ignored"⟩

/-- What is told about the counters. -/
def told (c : ScanCounts) : List (String × ℕ) :=
  [("directories", c.directories), ("excluded_directories", c.excludedDirectories),
    ("files", c.files), ("missing", c.missing), ("ignored", c.ignored),
    ("skipped_symlinks", c.skippedLinks), ("skipped_special", c.skippedSpecial)]

lemma field?_toJson {c : ScanCounts} {key : String} {n : ℕ} (hmem : (key, n) ∈ c.told) :
    c.toJson.field? key = some (.ofNat n) := by
  have htold : c.toJson = .sortedObject (c.told.map fun f => (f.1, .ofNat f.2)) := rfl
  rw [htold, Json.field?_sortedObject (by simp [told]) (List.mem_map.mpr ⟨_, hmem, rfl⟩)]

/-- **The counters are read back.** -/
lemma ofJson?_toJson (c : ScanCounts) : ofJson? c.toJson = some c := by
  have hfield : ∀ f ∈ c.told, c.toJson.field? f.1 = some (.ofNat f.2) := fun _ => field?_toJson
  simp only [told, List.forall_mem_cons] at hfield
  obtain ⟨hdirectories, hexcluded, hfiles, hmissing, hignored, hlinks, hspecial, -⟩ := hfield
  simp [ofJson?, hdirectories, hexcluded, hfiles, hmissing, hignored, hlinks, hspecial]

end ScanCounts

namespace Report

/-- The outcome of a scan that a summary with its tree tells about. -/
def outcomeIn? (v : Json) : Option ScanOutcome := do
  let counts ← ScanCounts.ofJson? (← v.field? "stats")
  match v.field? "tree" with
  | none => return ⟨none, counts⟩
  | some tree => return ⟨← Snapshot.ofJson? tree, counts⟩

/-- A summary with its tree has these fields. -/
def summaryFields (root : Path) (outcome : ScanOutcome) : List (String × Json) :=
  [("root", .string root.display),
    ("root_hash", .ofOption (fun s : Snapshot => .string s.digest.hex) outcome.snapshot),
    ("stats", outcome.counts.toJson)] ++ outcome.snapshot.toList.map fun s => ("tree", s.toJson)

lemma scanValue_eq (root : Path) (outcome : ScanOutcome) :
    scanValue root outcome true = .sortedObject (summaryFields root outcome) := by
  obtain ⟨snapshot, counts⟩ := outcome
  cases snapshot <;> rfl

lemma nodup_summaryFields (root : Path) (outcome : ScanOutcome) :
    ((summaryFields root outcome).map (·.1)).Nodup := by
  obtain ⟨snapshot, counts⟩ := outcome
  cases snapshot <;> simp [summaryFields]

lemma field?_scanValue (root : Path) (outcome : ScanOutcome) (key : String) (v : Json)
    (hmem : (key, v) ∈ summaryFields root outcome) :
    (scanValue root outcome true).field? key = some v := by
  rw [scanValue_eq, Json.field?_sortedObject (nodup_summaryFields root outcome) hmem]

/-- **The outcome of a scan is read back from its summary.** -/
theorem outcomeIn?_scanValue (root : Path) (outcome : ScanOutcome) :
    outcomeIn? (scanValue root outcome true) = some outcome := by
  have hstats := field?_scanValue root outcome "stats" outcome.counts.toJson
    (by simp [summaryFields])
  obtain ⟨snapshot, counts⟩ := outcome
  cases snapshot with
  | none =>
      have htree : (scanValue root ⟨none, counts⟩ true).field? "tree" = none := by
        rw [scanValue_eq, Json.field?_sortedObject_eq_none (by simp [summaryFields])]
      simp [outcomeIn?, hstats, htree, ScanCounts.ofJson?_toJson]
  | some s =>
      have htree := field?_scanValue root ⟨some s, counts⟩ "tree" s.toJson (by simp [summaryFields])
      simp [outcomeIn?, hstats, htree, ScanCounts.ofJson?_toJson, Snapshot.ofJson?_toJson]

/-- The text of a summary with its tree determines the outcome, whatever the root. -/
lemma scanJson_injective {root root' : Path} {outcome outcome' : ScanOutcome}
    (h : scanJson root outcome true = scanJson root' outcome' true) : outcome = outcome' := by
  have hvalue := congrArg outcomeIn? (Json.pretty_injective h)
  rwa [outcomeIn?_scanValue, outcomeIn?_scanValue, Option.some.injEq] at hvalue

/-- **The summary for programs tells everything.** Its text spells an object. The tree in it is read
back as the snapshot and the statistics as the counters, so the text of no other outcome is the
same, and the digest of the root is the one that stands at the top of the tree. -/
theorem scanJson_tells_all (root : Path) (s : Snapshot) (counts : ScanCounts) :
    ∃ v tree, Json.parse? (scanJson root ⟨some s, counts⟩ true) = some v
      ∧ v.field? "tree" = some tree ∧ Snapshot.ofJson? tree = some s
      ∧ (v.field? "stats").bind ScanCounts.ofJson? = some counts
      ∧ v.field? "root_hash" = tree.field? "hash" ∧ tree.field? "hash" = some (.string s.digest.hex)
      ∧ ∀ root' outcome, scanJson root' outcome true = scanJson root ⟨some s, counts⟩ true →
        outcome = ⟨some s, counts⟩ := by
  have hfield := field?_scanValue root ⟨some s, counts⟩
  have hstats := hfield "stats" counts.toJson (by simp [summaryFields])
  have htree := hfield "tree" s.toJson (by simp [summaryFields])
  have hroot := hfield "root_hash" (.string s.digest.hex) (by simp [summaryFields, Json.ofOption])
  refine ⟨scanValue root ⟨some s, counts⟩ true, s.toJson, Json.parse?_pretty _, htree,
    Snapshot.ofJson?_toJson s, ?_, ?_, s.field?_hash_toJson, fun _ _ h => scanJson_injective h⟩
  · rw [hstats, Option.bind_some, ScanCounts.ofJson?_toJson]
  · rw [hroot, s.field?_hash_toJson]

end Report

end TreeDigest
