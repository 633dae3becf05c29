import TreeDigest.Proofs.Builder.Merkle
import TreeDigest.Proofs.Hashing.Encoding

/-!
What the digest of a directory binds.

Two directories that builders made and whose digests are equal list the same names and
digests, and so do all directories that stand at the same places below them, unless two
different byte strings with one digest were hashed on the way. The collision is at hand:
it is the bytes of two directories at the same place.

* `HashFunction.Builds` says that a builder with a hash function made a snapshot.
* `Snapshot.Matched` pairs the directories that stand at the same places in two snapshots.
* `SameDigest.of_matched` is the induction down the pairs, and `directory_digest_binds` the
  theorem.
-/

namespace TreeDigest

namespace HashFunction

/-- A builder with this hash function made the snapshot: after some calls it stands somewhere
in what the builder holds. -/
def Builds (h : HashFunction) (s : Snapshot) : Prop :=
  ∃ o calls, ∃ root ∈ ((Builder.new h o).run calls).2.held, s.Within root

/-- The result of a run is a snapshot that its builder made. -/
lemma builds_of_result {h : HashFunction} {o : ChildOrdering} {calls : List Builder.Call}
    {s : Snapshot} (hs : ((Builder.new h o).run calls).2.result = .ok (some s)) : h.Builds s :=
  ⟨o, calls, s, Builder.mem_held_of_result hs, .self⟩

/-- What stands in a snapshot that a builder made was made by it too. -/
lemma Builds.child {h : HashFunction} {c s : Snapshot} (hs : h.Builds s)
    (hc : c ∈ s.children) : h.Builds c := by
  obtain ⟨o, calls, root, hroot, hwithin⟩ := hs
  exact ⟨o, calls, root, hroot, (Snapshot.Within.of_mem_children hc).trans hwithin⟩

end HashFunction

namespace Snapshot

/-- The bytes that are hashed for a directory node. -/
def hashedBytes (h : HashFunction) (s : Snapshot) : Bytes :=
  HashFunction.directoryBytes (h.signature "DIR") (listing s.children)

/-- Every name in a snapshot is shorter than 2⁶⁴ bytes. -/
def ShortNames (s : Snapshot) : Prop := ∀ n, Within n s → Text.byteLength n.name < 2 ^ 64

/-- Two directories that stand at the same place in two snapshots. -/
inductive Matched (s t : Snapshot) : Snapshot → Snapshot → Prop where
  | top : Matched s t s t
  | child {a b c d : Snapshot} : Matched s t a b → (c, d) ∈ a.children.zip b.children →
      c.isDirectory = true → d.isDirectory = true → Matched s t c d

lemma Matched.within {s t a b : Snapshot} (hab : Matched s t a b) :
    a.Within s ∧ b.Within t := by
  induction hab with
  | top => exact ⟨.self, .self⟩
  | child _ hmem _ _ ih =>
      obtain ⟨hc, hd⟩ := List.of_mem_zip hmem
      exact ⟨(Within.of_mem_children hc).trans ih.1, (Within.of_mem_children hd).trans ih.2⟩

/-- The digest of a directory that a builder made is that of its own message. -/
lemma digest_eq_of_builds {f : Bytes → Digest} {s : Snapshot}
    (hs : (HashFunction.ofBytes f).Builds s) (hdir : s.isDirectory = true) :
    s.digest = f (s.hashedBytes (.ofBytes f)) := by
  obtain ⟨o, calls, root, hroot, hwithin⟩ := hs
  cases s with
  | leaf l => simp [isDirectory] at hdir
  | directory location digest children =>
      exact (Builder.isMerkle_of_mem_held hroot location digest children hwithin).1

lemma ShortNames.child {c s : Snapshot} (hs : s.ShortNames) (hc : c ∈ s.children) :
    c.ShortNames :=
  fun n hn => hs n (hn.trans (.of_mem_children hc))

lemma ShortNames.listing {s : Snapshot} (hs : s.ShortNames) :
    ∀ c ∈ listing s.children, Text.byteLength c.1 < 2 ^ 64 := by
  intro c hc
  obtain ⟨n, hn, rfl⟩ := List.mem_map.mp hc
  exact hs n (.of_mem_children hn)

/-- Children that are listed alike have equal digests, one by one. -/
lemma digest_eq_of_mem_zip : ∀ {cs ds : List Snapshot} {c d : Snapshot},
    Snapshot.listing cs = Snapshot.listing ds → (c, d) ∈ cs.zip ds → c.digest = d.digest
  | [], _, _, _, _, hmem => by simp at hmem
  | _ :: _, [], _, _, hlist, _ => by simp [Snapshot.listing] at hlist
  | a :: cs, b :: ds, c, d, hlist, hmem => by
      simp only [Snapshot.listing, List.map_cons, List.cons.injEq, Prod.mk.injEq] at hlist
      rcases List.mem_cons.mp (List.zip_cons_cons .. ▸ hmem) with heq | hmem
      · obtain ⟨rfl, rfl⟩ := Prod.mk.inj heq
        exact hlist.1.2
      · exact digest_eq_of_mem_zip hlist.2 hmem

/-- Two directories that builders made over one hash function and whose digests are equal. -/
structure SameDigest (f : Bytes → Digest) (a b : Snapshot) : Prop where
  left : (HashFunction.ofBytes f).Builds a
  right : (HashFunction.ofBytes f).Builds b
  leftDirectory : a.isDirectory = true
  rightDirectory : b.isDirectory = true
  leftNames : a.ShortNames
  rightNames : b.ShortNames
  digest : a.digest = b.digest

/-- Two directories for which different byte strings were hashed, with the same digest. -/
def Collide (f : Bytes → Digest) (a b : Snapshot) : Prop :=
  a.hashedBytes (.ofBytes f) ≠ b.hashedBytes (.ofBytes f)
    ∧ f (a.hashedBytes (.ofBytes f)) = f (b.hashedBytes (.ofBytes f))

namespace SameDigest

variable {f : Bytes → Digest} {a b c d s t : Snapshot}

/-- Directories of equal digest list the same children, unless they collide. -/
lemma listing_eq (hab : SameDigest f a b) (hfree : ¬ Collide f a b) :
    listing a.children = listing b.children := by
  have hdigest := hab.digest
  rw [digest_eq_of_builds hab.left hab.leftDirectory,
    digest_eq_of_builds hab.right hab.rightDirectory] at hdigest
  have hbytes : a.hashedBytes (.ofBytes f) = b.hashedBytes (.ofBytes f) := by
    by_contra hne
    exact hfree ⟨hne, hdigest⟩
  exact HashFunction.directoryBytes_inj hab.leftNames.listing hab.rightNames.listing hbytes

/-- Equal digests are handed down to the directories that stand at the same place in equal
listings. -/
lemma child (hab : SameDigest f a b) (hlist : listing a.children = listing b.children)
    (hmem : (c, d) ∈ a.children.zip b.children) (hc : c.isDirectory = true)
    (hd : d.isDirectory = true) : SameDigest f c d where
  left := hab.left.child (List.of_mem_zip hmem).1
  right := hab.right.child (List.of_mem_zip hmem).2
  leftDirectory := hc
  rightDirectory := hd
  leftNames := hab.leftNames.child (List.of_mem_zip hmem).1
  rightNames := hab.rightNames.child (List.of_mem_zip hmem).2
  digest := digest_eq_of_mem_zip hlist hmem

/-- **The induction down the pairs**: where nothing collides, equal digests at the top are
equal digests at every pair of directories below. -/
lemma of_matched (hst : SameDigest f s t) (hfree : ∀ a b, Matched s t a b → ¬ Collide f a b)
    (hab : Matched s t a b) : SameDigest f a b := by
  induction hab with
  | top => exact hst
  | child hm hmem hc hd ih => exact ih.child (ih.listing_eq (hfree _ _ hm)) hmem hc hd

end SameDigest

/-- **The digest of a directory binds all that is below it.** Let two directories with equal
digests be made by builders over a hash function that digests bytes, in any order of children
and by any calls. Then two directories at the same place in them hashed different bytes to one
digest, or at every place where both have a directory the two directories list equally many
children, with equal names and equal digests in order. -/
theorem directory_digest_binds (f : Bytes → Digest) (s t : Snapshot)
    (hs : (HashFunction.ofBytes f).Builds s) (ht : (HashFunction.ofBytes f).Builds t)
    (hsdir : s.isDirectory = true) (htdir : t.isDirectory = true)
    (hsnames : s.ShortNames) (htnames : t.ShortNames) (hdigest : s.digest = t.digest) :
    (∃ a b, a.Within s ∧ b.Within t ∧ Matched s t a b ∧ Collide f a b)
      ∨ ∀ a b, Matched s t a b → listing a.children = listing b.children := by
  by_cases hfree : ∃ a b, Matched s t a b ∧ Collide f a b
  · obtain ⟨a, b, hab, hcollide⟩ := hfree
    exact .inl ⟨a, b, hab.within.1, hab.within.2, hab, hcollide⟩
  · refine .inr fun a b hab => ?_
    have hnone : ∀ a b, Matched s t a b → ¬ Collide f a b :=
      fun a b hab hcollide => hfree ⟨a, b, hab, hcollide⟩
    have hst : SameDigest f s t := ⟨hs, ht, hsdir, htdir, hsnames, htnames, hdigest⟩
    exact (hst.of_matched hnone hab).listing_eq (hnone a b hab)

/-- A digest that only counts bytes gives two directories with names of one length the same
digest; here it is the collision that the theorem finds. -/
theorem directory_digest_binds_counting :
    let f : Bytes → Digest := fun bytes => .replicate (.ofNat bytes.length)
    let h := HashFunction.ofBytes f
    let single := fun name : String =>
      Snapshot.directory ⟨"/r", "r", .direct⟩
        (h.directory (h.signature "DIR") [(name, h.missing)])
        [.leaf (.missing h ⟨"/r/" ++ name, name, .direct⟩)]
    h.Builds (single "a") ∧ h.Builds (single "b")
      ∧ (single "a").ShortNames ∧ (single "b").ShortNames
      ∧ (single "a").digest = (single "b").digest
      ∧ ((∃ a b, a.Within (single "a") ∧ b.Within (single "b")
            ∧ Matched (single "a") (single "b") a b ∧ Collide f a b)
          ∨ ∀ a b, Matched (single "a") (single "b") a b →
              listing a.children = listing b.children) := by
  intro f h single
  have hbuilds : ∀ name, h.Builds (single name) := by
    intro name
    have hresult : ((Builder.new h .asVisited).run [.enter ⟨"/r", "r", .direct⟩ .included,
        .leaf (.missing h ⟨"/r/" ++ name, name, .direct⟩), .exit]).2.result
          = .ok (some (single name)) := rfl
    exact HashFunction.builds_of_result hresult
  have hshort : ∀ name, Text.byteLength name < 2 ^ 64 → (single name).ShortNames := by
    intro name hname n hn
    rcases Within.directory_iff.mp hn with rfl | ⟨c, hc, hn⟩
    · show Text.byteLength "r" < 2 ^ 64
      decide
    · obtain rfl := List.mem_singleton.mp hc
      obtain rfl := Within.leaf_iff.mp hn
      exact hname
  have hdigest : (single "a").digest = (single "b").digest := rfl
  exact ⟨hbuilds "a", hbuilds "b", hshort "a" (by decide), hshort "b" (by decide), hdigest,
    directory_digest_binds f (single "a") (single "b") (hbuilds "a") (hbuilds "b") rfl rfl
      (hshort "a" (by decide)) (hshort "b" (by decide)) hdigest⟩

end Snapshot

end TreeDigest
