/-
The workers of a run cover the data shards. Identities with as many different ranks as there are ranks
have all of them, so every shard has an owner among them, and only one, since the owner's rank is the
remainder of the shard. What a worker visits in an epoch that ends well is the list of shards it owns.
-/
import ParamExchange.Config.Reader
import ParamExchange.Identity.Environment
import ParamExchange.Proofs.Worker.Epochs

namespace ParamExchange

/-! ## The shards of one worker -/

namespace Identity

/-- The strided list of a worker is what the remainder picks out of all shards. -/
theorem owned_eq_filter (i : Identity) (total : Nat) : i.owned total = (List.range total).filter i.owns := by
  have hfilter : ((List.range total).filter i.owns).Pairwise (· < ·) := List.pairwise_lt_range.filter _
  refine (i.pairwise_owned total).eq_of_mem_iff hfilter fun shard => ?_
  rw [mem_owned, List.mem_filter, List.mem_range]

theorem rankSize_toNat_pos (i : Identity) : 0 < i.rankSize.toNat := Nat.zero_lt_of_lt i.rank_toNat_lt

/-- The number of ranks of an identity is never a divisor that gives no remainder. -/
theorem owns?_eq (i : Identity) (shard : Nat) :
    owns? shard i.rank.toNat i.rankSize.toNat = some (i.owns shard) := by
  unfold owns?
  rw [if_neg (Nat.ne_of_gt i.rankSize_toNat_pos)]
  rfl

/-- Two workers of one run that own the same shard have the same rank. -/
theorem rank_eq_of_owns {i j : Identity} {shard : Nat} (hsize : i.rankSize.toNat = j.rankSize.toNat)
    (hi : i.owns shard = true) (hj : j.owns shard = true) : i.rank = j.rank := by
  unfold owns at hi hj
  rw [beq_iff_eq] at hi hj
  rw [hsize, hj] at hi
  exact UInt64.toNat_inj.1 hi.symm

/-- As many different ranks as there are ranks are all of them. -/
theorem exists_rank {ids : List Identity} {count rank : Nat} (hsize : ∀ i ∈ ids, i.rankSize.toNat = count)
    (hlength : ids.length = count) (hranks : (ids.map (·.rank)).Nodup) (hrank : rank < count) :
    ∃ i ∈ ids, i.rank.toNat = rank := by
  have hnodup : (ids.map (·.rank.toNat)).Nodup := by
    have hmap : ids.map (·.rank.toNat) = (ids.map (·.rank)).map UInt64.toNat := by
      rw [List.map_map]
      rfl
    rw [hmap]
    exact hranks.map fun _ _ heq => UInt64.toNat_inj.1 heq
  have hsub : ids.map (·.rank.toNat) ⊆ List.range count := by
    intro r hr
    obtain ⟨i, hi, rfl⟩ := List.mem_map.1 hr
    rw [List.mem_range, ← hsize i hi]
    exact i.rank_toNat_lt
  -- different numbers below the count, and as many of them
  have hperm : (ids.map (·.rank.toNat)).Perm (List.range count) := by
    refine (List.subperm_of_subset hnodup hsub).perm_of_length_le ?_
    rw [List.length_range, List.length_map, hlength]
  exact List.mem_map.1 (hperm.mem_iff.2 (List.mem_range.2 hrank))

end Identity

/-! ## The shards of an epoch -/

namespace Worker

variable {σ τ α : Type} [Scalar α] {t : Transport σ α} {trainer : Trainer τ α} {w w' : Worker σ τ α}
  {progress next : Progress α}

theorem Gives.shards_close (h : Gives (close t progress) w next w') : next.shards = progress.shards := by
  obtain ⟨n, between, -, hpure⟩ := gives_bind.1 h
  obtain ⟨rfl, -⟩ := gives_pure.1 hpure
  rfl

theorem Gives.shards_visit {shard : Nat} (h : Gives (visit t trainer progress shard) w next w') :
    next.shards = progress.shards ++ [shard] := by
  rw [visit, gives_get_bind] at h
  obtain ⟨gradients, trained, -, h⟩ := gives_bind.1 h
  obtain ⟨_, same, -, h⟩ := gives_bind.1 h
  dsimp only at h
  split at h
  · exact shards_close h
  · obtain ⟨rfl, -⟩ := gives_pure.1 h
    rfl

/-- An epoch that ends well reports the shards that the worker owns, whatever was before it. -/
theorem Gives.shards_runEpoch {total : Nat} {report : EpochReport}
    (h : Gives (Worker.runEpoch t trainer total) w report w') : report.shards = w.identity.owned total := by
  obtain ⟨visited, progress, w₁, w₂, w₃, n, hvisits, hclose, -, rfl, -⟩ := gives_runEpoch h
  have hvisited : visited.shards = [] ++ w.identity.owned total := by
    refine Gives.foldlM (P := fun done progress _ => progress.shards = done) ?_ rfl hvisits
    rintro done progress _ shard next _ rfl hvisit
    exact shards_visit hvisit
  rw [List.nil_append] at hvisited
  split at hclose
  · obtain ⟨rfl, -⟩ := gives_pure.1 hclose
    exact hvisited
  · rw [← hvisited]
    exact shards_close hclose

end Worker

/-! ## The shards of a run -/

open Worker Identity

/-- Every shard has exactly one owner. Let there be as many identities as ranks, however they were come
by, each with this number of ranks and a rank of its own. Then the shards of each worker are strictly
increasing, they are those below the total whose remainder is its rank, the divisor is never zero, and
they are what the worker reports of an epoch that ends well. The shards of two workers are disjoint, and
those of all workers together are the shards below the total, each once. -/
theorem owned_covers (ids : List Identity) (count : Nat) (hpos : 0 < count)
    (hsize : ∀ i ∈ ids, i.rankSize.toNat = count) (hlength : ids.length = count)
    (hranks : (ids.map (·.rank)).Nodup) (total : Nat) :
    (∀ i ∈ ids, (i.owned total).Pairwise (· < ·) ∧
      i.owned total = (List.range total).filter i.owns ∧
      0 < i.rankSize.toNat ∧
      (∀ shard, owns? shard i.rank.toNat i.rankSize.toNat = some (i.owns shard)) ∧
      ∀ {σ τ α : Type} [Scalar α] (t : Transport σ α) (trainer : Trainer τ α) (w w' : Worker σ τ α)
        (report : EpochReport), w.identity = i → Gives (runEpoch t trainer total) w report w' →
        report.shards = i.owned total) ∧
    ids.Pairwise (fun i j => (i.owned total).Disjoint (j.owned total)) ∧
    (ids.flatMap (·.owned total)).Perm (List.range total) := by
  have hdisjoint : ids.Pairwise (fun i j => (i.owned total).Disjoint (j.owned total)) := by
    have hdistinct : ids.Pairwise (fun i j => i.rank ≠ j.rank) := List.pairwise_map.1 hranks
    refine hdistinct.imp_of_mem fun {i j} hi hj hne shard hsi hsj => ?_
    exact hne (rank_eq_of_owns ((hsize i hi).trans (hsize j hj).symm) (mem_owned.1 hsi).2 (mem_owned.1 hsj).2)
  refine ⟨fun i hi => ?_, hdisjoint, ?_⟩
  · refine ⟨i.pairwise_owned total, i.owned_eq_filter total, i.rankSize_toNat_pos, i.owns?_eq, ?_⟩
    rintro σ τ α _ t trainer w w' report rfl hepoch
    exact hepoch.shards_runEpoch
  · have hnodup : (ids.flatMap (·.owned total)).Nodup :=
      List.nodup_flatMap.2 ⟨fun i _ => (i.pairwise_owned total).imp Nat.ne_of_lt, hdisjoint⟩
    refine (List.perm_ext_iff_of_nodup hnodup List.nodup_range).2 fun shard => ?_
    rw [List.mem_flatMap, List.mem_range]
    constructor
    · rintro ⟨i, -, hshard⟩
      exact (mem_owned.1 hshard).1
    · -- the owner is the worker whose rank is the remainder
      intro hlt
      obtain ⟨i, hi, hrank⟩ := exists_rank hsize hlength hranks (Nat.mod_lt shard hpos)
      refine ⟨i, hi, mem_owned.2 ⟨hlt, ?_⟩⟩
      unfold owns
      rw [hsize i hi, hrank, beq_self_eq_true]

/-- Three identities, one of each way to come by one, share out eight shards. -/
theorem owned_covers_three :
    ∃ first second third,
      Identity.make "a" 0 3 = .ok first ∧
      Identity.ofEnvironment [("NODE_ID", [98]), ("RANK", [32, 49]), ("RANK_SIZE", [51])] = .ok second ∧
      (Json.parse Config.identity
        (Text.Utf8.encode "\x7b\"node_id\":\"c\",\"rank\":2,\"rank_size\":3\x7d")).toOption = some third ∧
      [first, second, third].Pairwise (fun i j => (i.owned 8).Disjoint (j.owned 8)) ∧
      ([first, second, third].flatMap (·.owned 8)).Perm (List.range 8) := by
  refine ⟨⟨"a", 0, 3, by decide⟩, ⟨"b", 1, 3, by decide⟩, ⟨"c", 2, 3, by decide⟩, rfl, by decide +kernel,
    by decide +kernel, ?_⟩
  exact (owned_covers _ 3 (by decide) (by decide) rfl (by decide) 8).2

end ParamExchange
