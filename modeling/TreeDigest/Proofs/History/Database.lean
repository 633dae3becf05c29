import TreeDigest.History.Database
import TreeDigest.Proofs.History.Codec

/-!
The history is a map from identities to records.

A row is put in front of the first row with the same or a larger key. So putting rows under
different keys can be done in either order, and the table is the same, row by row, whatever the
rows were before.

* `HistoryTable.find?_put`, `find?_erase` and `put_comm`: tables.
* `load_store_self`, `load_store_of_ne`, `load_remove` and `store_comm`: the records of identities.
-/

namespace TreeDigest

namespace Text

lemma bytes_ne_of_lt {a b : Bytes} (hlt : a < b) : a ≠ b := by
  rintro rfl
  exact List.lt_irrefl a hlt

lemma bytes_trichotomy (a b : Bytes) : a < b ∨ a = b ∨ b < a := by
  by_cases hab : a < b
  · exact .inl hab
  · by_cases hba : b < a
    · exact .inr (.inr hba)
    · exact .inr (.inl (List.le_antisymm (List.not_lt.mp hba) (List.not_lt.mp hab)))

end Text

namespace HistoryTable

variable {key other : Bytes}

/-! ### Tables -/

/-- Looking a key up in rows of which the first is known. -/
lemma lookup_cons_eq (key k v : Bytes) (rows : List (Bytes × Bytes)) :
    ((k, v) :: rows).lookup key = if key = k then some v else rows.lookup key := by
  rw [List.lookup_cons]
  by_cases h : key = k
  · simp [h]
  · simp [h, beq_eq_false_iff_ne.mpr h]

lemma lookup_putRow (key value other : Bytes) (rows : List (Bytes × Bytes)) :
    (putRow key value rows).lookup other
      = if other = key then some value else rows.lookup other := by
  induction rows with
  | nil => rw [putRow, lookup_cons_eq]
  | cons row rows ih =>
      obtain ⟨k, v⟩ := row
      rw [putRow]
      split
      · next heq =>
          obtain rfl : key = k := heq
          rw [lookup_cons_eq, lookup_cons_eq]
          split <;> rfl
      · next hne =>
          split
          · rw [lookup_cons_eq]
          · -- The row stays in front, and it is not one of the key.
            rw [lookup_cons_eq, lookup_cons_eq, ih]
            by_cases hk : other = k
            · have hother : other ≠ key := fun h => hne (h.symm.trans hk)
              rw [if_pos hk, if_pos hk, if_neg hother]
            · rw [if_neg hk, if_neg hk]

/-- **What is put under a key is found there**, and everything else stays. -/
theorem find?_put (t : HistoryTable) (key value other : Bytes) :
    (t.put key value).find? other = if other = key then some value else t.find? other :=
  lookup_putRow key value other t.rows

lemma lookup_filter_key (key other : Bytes) (rows : List (Bytes × Bytes)) :
    (rows.filter fun row => row.1 != key).lookup other
      = if other = key then none else rows.lookup other := by
  induction rows with
  | nil => simp
  | cons row rows ih =>
      obtain ⟨k, v⟩ := row
      by_cases hk : k = key
      · subst hk
        rw [List.filter_cons_of_neg (by simp), ih, lookup_cons_eq]
        split <;> rfl
      · rw [List.filter_cons_of_pos (by simpa using hk), lookup_cons_eq, lookup_cons_eq, ih]
        by_cases h : other = key
        · have hother : other ≠ k := fun h' => hk (h'.symm.trans h)
          rw [if_pos h, if_pos h, if_neg hother]
        · rw [if_neg h, if_neg h]

/-- **What is taken away is not found**, and everything else stays. -/
theorem find?_erase (t : HistoryTable) (key other : Bytes) :
    (t.erase key).find? other = if other = key then none else t.find? other :=
  lookup_filter_key key other t.rows

/-- A row passes the rows with smaller keys. -/
lemma putRow_cons_of_lt {k : Bytes} (hlt : k < key) (value v : Bytes)
    (rows : List (Bytes × Bytes)) :
    putRow key value ((k, v) :: rows) = (k, v) :: putRow key value rows := by
  have hle : ¬ Text.bytesLe key k = true := by simpa [Text.bytesLe] using hlt
  rw [putRow, if_neg (Text.bytes_ne_of_lt hlt).symm, if_neg hle]

/-- A row stops before a row with a larger key. -/
lemma putRow_cons_of_gt {k : Bytes} (hlt : key < k) (value v : Bytes)
    (rows : List (Bytes × Bytes)) :
    putRow key value ((k, v) :: rows) = (key, value) :: (k, v) :: rows := by
  have hle : Text.bytesLe key k = true := by simpa [Text.bytesLe] using List.le_of_lt hlt
  rw [putRow, if_neg (Text.bytes_ne_of_lt hlt), if_pos hle]

lemma putRow_cons_self (value v : Bytes) (rows : List (Bytes × Bytes)) :
    putRow key value ((key, v) :: rows) = (key, value) :: rows := by
  rw [putRow, if_pos rfl]

/-- The row with the smaller key may come first or last. -/
lemma putRow_comm_of_lt (hlt : key < other) (value value' : Bytes) (rows : List (Bytes × Bytes)) :
    putRow key value (putRow other value' rows) = putRow other value' (putRow key value rows) := by
  induction rows with
  | nil => rw [putRow, putRow, putRow_cons_of_gt hlt, putRow_cons_of_lt hlt, putRow]
  | cons row rows ih =>
      obtain ⟨k, v⟩ := row
      obtain hk | rfl | hk := Text.bytes_trichotomy k key
      · have hk' : k < other := List.lt_trans hk hlt
        rw [putRow_cons_of_lt hk, putRow_cons_of_lt hk', putRow_cons_of_lt hk,
          putRow_cons_of_lt hk', ih]
      · rw [putRow_cons_self, putRow_cons_of_lt hlt, putRow_cons_of_lt hlt, putRow_cons_self]
      · rw [putRow_cons_of_gt hk, putRow_cons_of_lt hlt]
        -- The larger key meets the same rows, and what it makes of them starts with no smaller one.
        obtain hother | rfl | hother := Text.bytes_trichotomy k other
        · rw [putRow_cons_of_lt hother, putRow_cons_of_gt hk]
        · rw [putRow_cons_self, putRow_cons_of_gt hk]
        · rw [putRow_cons_of_gt hother, putRow_cons_of_gt hlt]

/-- **Rows under different keys can be put in either order.** -/
theorem put_comm (t : HistoryTable) (hne : key ≠ other) (value value' : Bytes) :
    (t.put other value').put key value = (t.put key value).put other value' :=
    congrArg HistoryTable.mk <| by
  obtain hlt | heq | hlt := Text.bytes_trichotomy key other
  · exact putRow_comm_of_lt hlt value value' t.rows
  · exact absurd heq hne
  · exact (putRow_comm_of_lt hlt value' value t.rows).symm

end HistoryTable

namespace Database

/-! ### The records of identities -/

/-- Different identities have different keys. -/
lemma key_injective : Function.Injective key := by
  intro i j h
  have hprefixed : "history:" ++ i = "history:" ++ j := Text.utf8_injective h
  have hlists := congrArg String.toList hprefixed
  rw [String.toList_append, String.toList_append] at hlists
  exact String.toList_inj.mp (List.append_cancel_left hlists)

variable {d e : Database} {i j : String} {r : Record}

/-- What is loaded for an identity depends on the row of its key only. -/
lemma load_congr (h : d.table.find? (key i) = e.table.find? (key i)) : d.load i = e.load i := by
  rw [load, load, h]

/-- A row that cannot be decoded cannot be loaded. -/
lemma load_of_undecodable {bytes : Bytes} {e : DecodeError}
    (hbytes : d.table.find? (key i) = some bytes) (he : Record.decode bytes = .error e) :
    d.load i = .error (.undecodable e) := by
  rw [load, hbytes]
  simp only [he]

/-- There is a record or none, if a row that is there can be decoded. -/
lemma exists_load (hdecodes : ∀ bytes, d.table.find? (key i) = some bytes →
    ∃ r, Record.decode bytes = .ok r) : ∃ previous, d.load i = .ok previous := by
  rw [load]
  cases hbytes : d.table.find? (key i) with
  | none => exact ⟨none, rfl⟩
  | some bytes =>
      obtain ⟨r, hr⟩ := hdecodes bytes hbytes
      simp only [hr]
      exact ⟨some r, rfl⟩

lemma find?_store (d : Database) (i j : String) (r : Record) :
    (d.store i r).table.find? (key j)
      = if j = i then some r.encode else d.table.find? (key j) := by
  rw [store, HistoryTable.find?_put]
  simp only [key_injective.eq_iff]

/-- Storing a record leaves the records of other identities. -/
lemma load_store_of_ne (hne : j ≠ i) (d : Database) (r : Record) :
    (d.store i r).load j = d.load j :=
  load_congr (by rw [find?_store, if_neg hne])

/-- **A record that was stored is loaded again.** -/
theorem load_store_self (hr : r.recordedAt.isValid = true) (d : Database) (i : String) :
    (d.store i r).load i = .ok (some r) := by
  have hdecode := Record.decode_encode hr []
  rw [List.append_nil] at hdecode
  simp only [load, find?_store, if_true, hdecode]

/-- **An identity that was removed is not known**, and the others stay. -/
theorem load_remove (d : Database) (i j : String) :
    (d.remove i).2.load j = if j = i then .ok none else d.load j := by
  have hfind : (d.remove i).2.table.find? (key j)
      = if j = i then none else d.table.find? (key j) := by
    rw [remove, HistoryTable.find?_erase]
    simp only [key_injective.eq_iff]
  by_cases hj : j = i
  · rw [if_pos hj] at hfind ⊢
    rw [load, hfind]
  · rw [if_neg hj] at hfind ⊢
    exact load_congr hfind

/-- **Records of different identities can be stored in either order.** -/
theorem store_comm (d : Database) (hne : i ≠ j) (r s : Record) :
    (d.store j s).store i r = (d.store i r).store j s := by
  simp only [store]
  rw [HistoryTable.put_comm _ (key_injective.ne hne)]

end Database

end TreeDigest
