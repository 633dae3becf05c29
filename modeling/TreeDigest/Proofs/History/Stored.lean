import TreeDigest.Proofs.FileSystem.Making
import TreeDigest.Proofs.History.Database
import TreeDigest.Proofs.Path.Components

/-!
The history in its file.

A table is written row by row, keys and values behind their lengths, and it is read back as it was
as long as every length fits the eight bytes it is written in. So it does in every table that was
read, and after a record was put into it.

* `unframe?_framed` and `decode?_encode`: a table is read back.
* `storable_decode?` and `Storable.put` keep lengths in their bounds.
* `Database.Keeps`: a directory keeps a table in its file. What is saved over it is kept then.
* `openIn_ok` says what an open database is, and `openIn_of_keeps` that one which keeps its table
  can be opened again.
-/

namespace TreeDigest

namespace Record

/-- Some bytes spell a number that fits as many. -/
lemma fromLittleEndian_lt (bytes : Bytes) : fromLittleEndian bytes < 256 ^ bytes.length := by
  induction bytes with
  | nil => simp [fromLittleEndian]
  | cons b bytes ih =>
      have hb : b.toNat < 256 := b.toNat_lt
      rw [fromLittleEndian, List.foldr_cons, ← fromLittleEndian, List.length_cons, pow_succ]
      omega

/-- A stored record is short. -/
lemma length_encode_lt {r : Record} (hr : r.recordedAt.isValid = true) :
    r.encode.length < 2 ^ 64 := by
  have htext : Text.byteLength r.recordedAt.storedText ≤ 4 * 40 := by
    have hshort := Instant.length_storedText_le hr
    have hbytes := Text.length_utf8_le r.recordedAt.storedText
    rw [Text.length_utf8] at hbytes
    omega
  have hdigest : (encodeDigest r.digest).length ≤ 33 := by
    cases r.digest with
    | none => simp [encodeDigest]
    | some d => simp [encodeDigest, d.length_toBytes]
  simp only [encode, encodeText, encodeTruth, List.length_append, length_littleEndian64,
    Text.length_utf8, List.length_singleton]
  omega

end Record

namespace HistoryTable

variable {b rest bytes key value : Bytes} {t : HistoryTable}

/-- The lengths of all keys and values fit eight bytes. -/
def Storable (t : HistoryTable) : Prop :=
  ∀ row ∈ t.rows, row.1.length < 2 ^ 64 ∧ row.2.length < 2 ^ 64

lemma storable_empty : empty.Storable := by simp [Storable, empty]

/-! ### Reading a table back -/

/-- A byte string is read back, whatever follows it. -/
lemma unframe?_framed (hb : b.length < 2 ^ 64) (rest : Bytes) :
    unframe? (framed b ++ rest) = some (b, rest) := by
  have hsize := Record.length_littleEndian64 b.length
  have hdrop : (framed b ++ rest).drop 8 = b ++ rest := by
    rw [framed, List.append_assoc, List.drop_left' hsize]
  have htake : (framed b ++ rest).take 8 = Record.littleEndian64 b.length := by
    rw [framed, List.append_assoc, List.take_left' hsize]
  have hlong : ¬ (framed b ++ rest).length < 8 := by
    simp only [framed, List.length_append, hsize]
    omega
  have henough : ¬ (b ++ rest).length < b.length := by simp
  simp only [unframe?, hdrop, htake, Record.fromLittleEndian_littleEndian64 hb, hlong, henough,
    or_self, if_false, List.take_left', List.drop_left']

/-- Rows are read back, if there is room for as many. -/
lemma decodeRows_encode {rows : List (Bytes × Bytes)} {room : ℕ} (hroom : rows.length ≤ room)
    (hrows : ∀ row ∈ rows, row.1.length < 2 ^ 64 ∧ row.2.length < 2 ^ 64) :
    decodeRows room (rows.flatMap fun row => framed row.1 ++ framed row.2) = some rows := by
  induction rows generalizing room with
  | nil => cases room <;> rfl
  | cons row rows ih =>
      obtain ⟨room, rfl⟩ : ∃ n, room = n + 1 := ⟨room - 1, by simp at hroom; omega⟩
      rw [List.forall_mem_cons] at hrows
      rw [List.flatMap_cons, List.append_assoc]
      have hne : framed row.1 ++ (framed row.2 ++ rows.flatMap fun row =>
          framed row.1 ++ framed row.2) ≠ [] := by simp [framed, Record.littleEndian64, bigEndian64]
      rw [decodeRows.eq_3 _ _ hne, unframe?_framed hrows.1.1]
      simp only [Option.bind_eq_bind, Option.bind_some, unframe?_framed hrows.1.2,
        ih (Nat.le_of_succ_le_succ hroom) hrows.2]
      rfl

/-- **A table is read back from its stored form.** -/
theorem decode?_encode (ht : t.Storable) : decode? t.encode = some t := by
  have hlength : t.rows.length ≤ t.encode.length := by
    rw [encode, List.length_flatMap]
    calc t.rows.length = (t.rows.map fun _ => 1).sum := by simp
      _ ≤ _ := List.sum_le_sum fun row _ => by
          simp only [List.length_append, framed, Record.length_littleEndian64]
          omega
  have hrows := decodeRows_encode hlength ht
  rw [encode] at hrows
  rw [decode?, encode, hrows]
  rfl

/-! ### Lengths -/

lemma length_of_unframe? (hb : unframe? bytes = some (b, rest)) : b.length < 2 ^ 64 := by
  have hsize := Record.fromLittleEndian_lt (bytes.take 8)
  have hpow : 256 ^ (bytes.take 8).length ≤ 256 ^ 8 :=
    Nat.pow_le_pow_right (by norm_num) (by simp)
  rw [unframe?] at hb
  split at hb
  · cases hb
  · obtain ⟨rfl, -⟩ := Prod.mk.inj (Option.some.inj hb)
    rw [List.length_take]
    omega

/-- Rows that were read have lengths that fit. -/
lemma storable_decodeRows {room : ℕ} {rows : List (Bytes × Bytes)}
    (hrows : decodeRows room bytes = some rows) :
    ∀ row ∈ rows, row.1.length < 2 ^ 64 ∧ row.2.length < 2 ^ 64 := by
  fun_induction decodeRows room bytes generalizing rows with
  | case1 =>
      obtain rfl := Option.some.inj hrows
      simp
  | case2 => cases hrows
  | case3 room bytes hne ih =>
      simp only [Option.bind_eq_bind, Option.bind_eq_some_iff] at hrows
      obtain ⟨⟨k, rest⟩, hk, ⟨v, rest'⟩, hv, more, hmore, hrow⟩ := hrows
      obtain rfl := Option.some.inj hrow
      exact List.forall_mem_cons.mpr
        ⟨⟨length_of_unframe? hk, length_of_unframe? hv⟩, ih _ hmore⟩

/-- **The lengths in a table that was read fit.** -/
lemma storable_decode? (ht : decode? bytes = some t) : t.Storable := by
  rw [decode?, Option.map_eq_some_iff] at ht
  obtain ⟨rows, hrows, rfl⟩ := ht
  exact storable_decodeRows hrows

lemma mem_putRow {rows : List (Bytes × Bytes)} {row : Bytes × Bytes}
    (hrow : row ∈ putRow key value rows) : row = (key, value) ∨ row ∈ rows := by
  induction rows with
  | nil => exact .inl (by simpa [putRow] using hrow)
  | cons first rows ih =>
      rw [putRow] at hrow
      split at hrow
      · exact (List.mem_cons.mp hrow).imp_right (List.mem_cons_of_mem _)
      · split at hrow
        · exact List.mem_cons.mp hrow
        · rcases List.mem_cons.mp hrow with rfl | hrow
          · exact .inr List.mem_cons_self
          · exact (ih hrow).imp_right (List.mem_cons_of_mem _)

lemma Storable.put (ht : t.Storable) (hkey : key.length < 2 ^ 64) (hvalue : value.length < 2 ^ 64) :
    (t.put key value).Storable := by
  intro row hrow
  rcases mem_putRow hrow with rfl | hrow
  · exact ⟨hkey, hvalue⟩
  · exact ht row hrow

end HistoryTable

namespace Database

variable {h h' : Host} {d : Database} {p D : Path} {t t' : HistoryTable}
  {files files' : FileSystem}

/-- The file of a table is below the directory that keeps it. -/
lemma fileIn_atOrBelow (D : Path) : (fileIn D).AtOrBelow D := Path.child_atOrBelow D (by decide)

/-- A directory keeps a table: its file is a regular one and holds the table. -/
structure Keeps (files : FileSystem) (D : Path) (t : HistoryTable) : Prop where
  storable : t.Storable
  file : ∃ modified, files.node true (fileIn D) = .ok (.file t.encode modified)

/-! ### Saving -/

lemma Keeps.isFile (h : Keeps files D t) : files.isFile (fileIn D) = true := by
  obtain ⟨modified, hnode⟩ := h.file
  exact FileSystem.isFile_iff.mpr ⟨_, modified, hnode⟩

/-- A table that was written to a regular file is kept. -/
lemma keeps_of_write (hfs : files.root.Distinct) (ht : t.Storable) {modified : ℤ}
    (hwritten : files.write (fileIn D) t.encode modified = .ok files')
    (hfile : files'.isFile (fileIn D) = true) : files.Puts (fileIn D) files' ∧ Keeps files' D t := by
  obtain ⟨hnode, hputs⟩ := FileSystem.write_ok_of_isFile hfs hwritten hfile
  exact ⟨hputs, ht, modified, hnode⟩

/-- **Where a table is kept another one can be**, and it takes its place. -/
lemma Keeps.write (hfs : files.root.Distinct) (hkeeps : Keeps files D t) (ht' : t'.Storable)
    (modified : ℤ) : ∃ files', files.write (fileIn D) t'.encode modified = .ok files'
      ∧ files.Puts (fileIn D) files' ∧ Keeps files' D t' := by
  obtain ⟨files', hwritten⟩ :=
    FileSystem.exists_write_of_isFile hkeeps.isFile t'.encode modified
  obtain ⟨hgrows, -⟩ := FileSystem.write_ok hfs hwritten
  have hfile : files'.isFile (fileIn D) = true := FileSystem.isFile_of_grows hgrows hkeeps.isFile
  exact ⟨files', hwritten, keeps_of_write hfs ht' hwritten hfile⟩

/-- **What was saved is kept**, and nothing but the files is touched. -/
theorem Keeps.save (hfs : h.files.root.Distinct) (hkeeps : Keeps h.files D t)
    (ht' : t'.Storable) : ∃ files, Database.save ⟨some D, t'⟩ h = h.withFiles files
      ∧ h.files.Puts (fileIn D) files ∧ Keeps files D t' := by
  obtain ⟨files, hwritten, hputs, hkept⟩ := hkeeps.write hfs ht' h.now.toNanos
  exact ⟨files, by simp only [Database.save, hwritten], hputs, hkept⟩

/-! ### Opening -/

lemma storable_loadTable (ht : loadTable files D = .ok t) : t.Storable := by
  rw [loadTable] at ht
  split at ht
  · split at ht
    · next hdecode =>
        obtain rfl := Except.ok.inj ht
        exact HistoryTable.storable_decode? hdecode
    · cases ht
  · split at ht
    · obtain rfl := Except.ok.inj ht
      exact HistoryTable.storable_empty
    · cases ht

/-- A table that is kept is loaded. -/
lemma Keeps.loadTable (hkeeps : Keeps files D t) : Database.loadTable files D = .ok t := by
  obtain ⟨ht, modified, hnode⟩ := hkeeps
  have hread : files.read (fileIn D) = .ok t.encode := by
    rw [FileSystem.read, hnode]
    rfl
  rw [Database.loadTable, hread]
  simp only [HistoryTable.decode?_encode ht]

/-- What opening comes to. -/
lemma openIn_eq (h : Host) (p : Path) :
    openIn h p = ((h.files.canonicalize p).mapError fun e => .cannotOpen e.message).bind fun D =>
      if D ∈ h.held then .error (.cannotOpen "the database is open elsewhere")
      else (loadTable h.files D).bind fun t =>
        ((h.files.write (fileIn D) t.encode h.now.toNanos).mapError fun e =>
          .cannotOpen e.message).bind fun files =>
          if files.isFile (fileIn D) then
            .ok (⟨some D, t⟩, { h with files := files, held := D :: h.held })
          else .error (.cannotOpen "the table is in no regular file") := by
  simp only [openIn, bind, List.contains_iff_mem]
  refine congrArg _ (funext fun D => ?_)
  by_cases hheld : D ∈ h.held
  · rw [if_pos hheld, if_pos hheld]
    rfl
  rw [if_neg hheld, if_neg hheld]
  refine congrArg (Except.bind _) (funext fun t => congrArg (Except.bind _) (funext fun files => ?_))
  by_cases hfile : files.isFile (fileIn D) = true
  · rw [hfile]
    rfl
  · rw [Bool.not_eq_true] at hfile
    rw [hfile]
    rfl

/-- **What an open database is**: its directory was free and is held, and it keeps the table. -/
theorem openIn_ok (hfs : h.files.root.Distinct) (hopen : openIn h p = .ok (d, h')) :
    ∃ D t, h.files.canonicalize p = .ok D ∧ D ∉ h.held ∧ d = ⟨some D, t⟩
      ∧ h.files.Puts (fileIn D) h'.files ∧ Keeps h'.files D t
      ∧ h' = { h with files := h'.files, held := D :: h.held } := by
  rw [openIn_eq] at hopen
  cases hD : h.files.canonicalize p with
  | error e => simp [hD, Except.mapError, Except.bind] at hopen
  | ok D =>
      by_cases hheld : D ∈ h.held
      · simp [hD, hheld, Except.mapError, Except.bind] at hopen
      cases ht : loadTable h.files D with
      | error e => simp [hD, hheld, ht, Except.mapError, Except.bind] at hopen
      | ok t =>
          cases hwritten : h.files.write (fileIn D) t.encode h.now.toNanos with
          | error e => simp [hD, hheld, ht, hwritten, Except.mapError, Except.bind] at hopen
          | ok files =>
              by_cases hfile : files.isFile (fileIn D) = true
              swap
              · simp [hD, hheld, ht, hwritten, hfile, Except.mapError, Except.bind] at hopen
              obtain ⟨rfl, rfl⟩ : (⟨some D, t⟩ : Database) = d
                  ∧ ({ h with files := files, held := D :: h.held } : Host) = h' := by
                simpa [hD, hheld, ht, hwritten, hfile, Except.mapError, Except.bind] using hopen
              obtain ⟨hputs, hkeeps⟩ :=
                keeps_of_write hfs (storable_loadTable ht) hwritten hfile
              exact ⟨D, t, rfl, hheld, rfl, hputs, hkeeps, rfl⟩

/-- **A table that is kept is there when its database is opened**, and stays kept. -/
theorem openIn_of_keeps (hfs : h.files.root.Distinct) (hD : h.files.canonicalize p = .ok D)
    (hfree : D ∉ h.held) (hkeeps : Keeps h.files D t) :
    ∃ files, openIn h p = .ok (⟨some D, t⟩, { h with files := files, held := D :: h.held })
      ∧ h.files.Puts (fileIn D) files ∧ Keeps files D t := by
  obtain ⟨files, hwritten, hputs, hkept⟩ := hkeeps.write hfs hkeeps.storable h.now.toNanos
  refine ⟨files, ?_, hputs, hkept⟩
  rw [openIn_eq]
  simp only [hD, Except.mapError, Except.bind, if_neg hfree, hkeeps.loadTable, hwritten,
    hkept.isFile, if_true]

/-- The same of opening a database whose directory is made if it is missing. -/
theorem openAt_ok (hfs : h.files.root.Distinct) (hopen : openAt h p = (.ok d, h')) :
    ∃ D t, D ∉ h.held ∧ d = ⟨some D, t⟩ ∧ h.files.Grows h'.files
      ∧ h.files.Written (fun a => p.OnWay a ∨ a = fileIn D) h'.files
      ∧ (p.bytes = [] ∨ h'.files.isDirectory p = true) ∧ h'.files.canonicalize p = .ok D
      ∧ Keeps h'.files D t ∧ h' = { h with files := h'.files, held := D :: h.held } := by
  obtain ⟨hgrows, hthere, hwritten⟩ := FileSystem.createDirectories_spec hfs p
  rw [openAt, Host.makeDirectories] at hopen
  cases hmade : (h.files.createDirectories p).result with
  | error e => simp [hmade] at hopen
  | ok u =>
      simp only [hmade] at hopen
      cases hin : openIn (h.withFiles (h.files.createDirectories p).files) p with
      | error e => simp [hin] at hopen
      | ok opened =>
          obtain ⟨rfl, rfl⟩ : opened.1 = d ∧ opened.2 = h' := by simpa [hin] using hopen
          obtain ⟨D, t, hD, hfree, hd, hputs, hkeeps, hh'⟩ := openIn_ok hgrows.distinct hin
          exact ⟨D, t, hfree, hd, hgrows.trans hputs.grows,
            (hwritten.mono fun a ha => .inl ha).put (.inr rfl) hputs,
            (hthere hmade).imp_right (FileSystem.isDirectory_of_grows hputs.grows),
            FileSystem.canonicalize_of_grows hputs.grows hD, hkeeps, hh'⟩

/-- The same of a database whose directory is there. -/
theorem openAt_of_keeps (hfs : h.files.root.Distinct)
    (hp : p.bytes = [] ∨ h.files.isDirectory p = true) (hD : h.files.canonicalize p = .ok D)
    (hfree : D ∉ h.held) (hkeeps : Keeps h.files D t) :
    ∃ files, openAt h p = (.ok ⟨some D, t⟩, { h with files := files, held := D :: h.held })
      ∧ h.files.Puts (fileIn D) files ∧ Keeps files D t := by
  obtain ⟨files, hopen, hkept⟩ := openIn_of_keeps hfs hD hfree hkeeps
  refine ⟨files, ?_, hkept⟩
  have hmade : h.makeDirectories p = (.ok (), h) := by
    rw [Host.makeDirectories, FileSystem.createDirectories_of_isDirectory hp]
    rfl
  simp only [openAt, hmade, hopen]

end Database

end TreeDigest
