import Mathlib.Algebra.BigOperators.Group.List.Lemmas
import Mathlib.Algebra.GroupWithZero.Nat
import Mathlib.Data.Prod.Lex
import Mathlib.Data.String.Basic
import RemoteShell.Proofs.Counts.Entries
import RemoteShell.Proofs.Pool.Records

/-!
# What operators see of a pool

Two views of a pool are open to operators: a list of its connections in the order of their logins,
and statistics with the number of connections on each host.  Both are made from the records that are
pooled, and they agree: a login has one connection at most, so the list is strictly ascending, and
the hosts in the statistics are those of the list, each with the number of its connections.

## Main definitions

* `Login.rank`: a login as a point of a linear order
* `Counts.Tallies`: counts tell how often each name stands in a list

## Main results

* `Login.before_iff_rank_lt`: logins are ordered by user, then host, then port
* `Counts.tallies_foldl_increment`: counting names one after another tallies them
* `Pool.Tidy.overview`: what is listed, and what the statistics say of it
-/

namespace RemoteShell

/-! ## The order of logins -/

namespace Login

variable {a b c : Login}

/-- **A login as a point of a linear order**: by user, then host, then port. -/
def rank (k : Login) : String ×ₗ String ×ₗ Nat := toLex (k.user, toLex (k.host, k.port.toNat))

theorem rank_injective : Function.Injective rank := by
  rintro ⟨user, host, port⟩ ⟨user', host', port'⟩ h
  simp only [rank, EmbeddingLike.apply_eq_iff_eq, Prod.mk.injEq] at h
  obtain ⟨rfl, rfl, hport⟩ := h
  rw [UInt16.toNat_inj.mp hport]

theorem before_iff_rank_lt : a.before b = true ↔ a.rank < b.rank := by
  rw [rank, rank, Prod.Lex.toLex_lt_toLex, Prod.Lex.toLex_lt_toLex, ← UInt16.lt_iff_toNat_lt,
    before]
  by_cases huser : a.user = b.user
  · rw [if_neg (not_not.mpr huser)]
    by_cases hhost : a.host = b.host
    · rw [if_neg (not_not.mpr hhost), decide_eq_true_eq]
      simp only [huser, hhost, lt_irrefl, true_and, false_or]
    · rw [if_pos hhost, decide_eq_true_eq]
      simp only [huser, hhost, lt_irrefl, true_and, false_and, false_or, or_false]
  · rw [if_pos huser, decide_eq_true_eq]
    simp only [huser, false_and, or_false]

theorem notAfter_iff_rank_le : a.notAfter b = true ↔ a.rank ≤ b.rank := by
  rw [notAfter, Bool.not_eq_true', ← not_lt, ← before_iff_rank_lt, Bool.not_eq_true]

theorem notAfter_trans (h : a.notAfter b = true) (h' : b.notAfter c = true) :
    a.notAfter c = true := by
  rw [notAfter_iff_rank_le] at *
  exact h.trans h'

theorem notAfter_total (a b : Login) : (a.notAfter b || b.notAfter a) = true := by
  rw [Bool.or_eq_true, notAfter_iff_rank_le, notAfter_iff_rank_le]
  exact le_total _ _

theorem before_of_notAfter_of_ne (h : a.notAfter b = true) (hne : a ≠ b) : a.before b = true := by
  rw [before_iff_rank_lt]
  exact lt_of_le_of_ne (notAfter_iff_rank_le.mp h) (rank_injective.ne hne)

end Login

/-! ## Counting names -/

namespace Counts

variable {c : Counts} {names : List String} {x : String × UInt64}

/-- **Counts tell how often each name stands in a list**, and have no entry for any other name. -/
def Tallies (c : Counts) (names : List String) : Prop :=
  ∀ name n, (name, n) ∈ c.entries ↔ name ∈ names ∧ n.toNat = names.count name

namespace Tallies

protected theorem empty : Tallies .empty [] := fun _ _ => by simp [Counts.empty]

theorem toNat_count (h : c.Tallies names) (hsize : names.length < UInt64.size) (name : String) :
    (c.count name).toNat = names.count name := by
  by_cases hname : name ∈ names
  · have hcount : (UInt64.ofNat (names.count name)).toNat = names.count name :=
      UInt64.toNat_ofNat_of_lt' (Nat.lt_of_le_of_lt List.count_le_length hsize)
    rw [count_eq_of_mem ((h name _).mpr ⟨hname, hcount⟩), hcount]
  · rw [count_eq_zero fun n hn => hname ((h name n).mp hn).1, List.count_eq_zero_of_not_mem hname]
    rfl

/-- One name more is counted. -/
theorem increment (h : c.Tallies names) (hsize : names.length + 1 < UInt64.size) (name : String) :
    (c.increment name).Tallies (names ++ [name]) := by
  intro other n
  have hnext : (c.count name + 1).toNat = names.count name + 1 := by
    have hcount := h.toNat_count (by omega) name
    have hle : names.count name ≤ names.length := List.count_le_length
    rw [UInt64.toNat_add, hcount, UInt64.toNat_one]
    exact Nat.mod_eq_of_lt (Nat.lt_of_le_of_lt (Nat.succ_le_succ hle) hsize)
  rw [Counts.increment, put, mem_putEntry_iff c.ascending, h, List.mem_append, List.mem_singleton,
    List.count_append, List.count_singleton, Prod.mk.injEq]
  by_cases hother : other = name
  · subst hother
    simp only [true_and, ne_eq, not_true_eq_false, and_false, or_false, or_true, beq_self_eq_true,
      if_true]
    rw [← hnext, UInt64.toNat_inj]
  · have hbeq : (name == other) = false := beq_false_of_ne (Ne.symm hother)
    simp [hother, hbeq]

theorem pos (h : c.Tallies names) (hx : x ∈ c.entries) : 0 < x.2 := by
  obtain ⟨hmem, hcount⟩ := (h x.1 x.2).mp hx
  rw [UInt64.lt_iff_toNat_lt, hcount]
  exact List.count_pos_iff.mpr hmem

/-- The counts are as many as the names altogether. -/
theorem sum_eq (h : c.Tallies names) (hsize : names.length < UInt64.size) :
    (c.entries.map fun x => x.2.toNat).sum = names.length := by
  have hperm : (c.entries.map Prod.fst).Perm names.dedup := by
    rw [List.perm_ext_iff_of_nodup c.nodup_names (List.nodup_dedup names)]
    intro name
    rw [List.mem_dedup]
    constructor
    · intro hname
      obtain ⟨x, hx, rfl⟩ := List.mem_map.mp hname
      exact ((h x.1 x.2).mp hx).1
    · intro hname
      have hmem := (h name (c.count name)).mpr ⟨hname, h.toNat_count hsize name⟩
      exact List.mem_map_of_mem hmem
  calc (c.entries.map fun x => x.2.toNat).sum
      = (c.entries.map fun x => names.count x.1).sum :=
        congrArg List.sum (List.map_congr_left fun x hx => ((h x.1 x.2).mp hx).2)
    _ = ((c.entries.map Prod.fst).map fun name => names.count name).sum := by
        rw [List.map_map]
        rfl
    _ = (names.dedup.map fun name => names.count name).sum := (hperm.map _).sum_eq
    _ = names.length := List.sum_map_count_dedup_eq_length names

end Tallies

/-- **Counting names one after another tallies them**, if they are no more than can be counted. -/
theorem tallies_foldl_increment (names : List String) (hsize : names.length < UInt64.size) :
    (names.foldl increment .empty).Tallies names := by
  induction names using List.reverseRecOn with
  | nil => exact .empty
  | append_singleton names name ih =>
    rw [List.length_append, List.length_singleton] at hsize
    rw [List.foldl_append]
    exact (ih (by omega)).increment hsize name

end Counts

/-! ## Lists and statistics -/

namespace Pool

variable {p : Pool}

/-- **The two views of a pool agree**: the list ascends strictly and has one item for each pooled
connection, and the statistics count its items, altogether and on each host. -/
structure Overview (p : Pool) : Prop where
  ascending : p.listing.Pairwise fun e f => e.key.before f.key = true
  items : p.listing.Perm p.pooled
  total : p.stats.total.toNat = p.listing.length
  hosts : ∀ host n, (host, n) ∈ p.stats.perHost.entries ↔
    (∃ e ∈ p.listing, e.key.host = host) ∧
      n.toNat = p.listing.countP fun e => e.key.host = host
  positive : ∀ x ∈ p.stats.perHost.entries, 0 < x.2
  sum : (p.stats.perHost.entries.map fun x => x.2.toNat).sum = p.stats.total.toNat

/-- No two pooled connections have one login. -/
theorem Tidy.pairwise_key_ne (h : p.Tidy) : p.pooled.Pairwise fun e f => e.key ≠ f.key := by
  refine h.nodup_pooled.imp_of_mem fun he hf hne hkey => hne ?_
  obtain ⟨he, hep⟩ := mem_pooled.mp he
  obtain ⟨hf, hfp⟩ := mem_pooled.mp hf
  exact h.logins _ he _ hf hep hfp hkey

/-- The list ascends strictly. -/
theorem Tidy.pairwise_listing (h : p.Tidy) :
    p.listing.Pairwise fun e f => e.key.before f.key = true := by
  have hsorted : p.listing.Pairwise fun e f => e.key.notAfter f.key = true := by
    rw [listing]
    refine List.pairwise_mergeSort ?_ ?_ _
    · exact fun _ _ _ => Login.notAfter_trans
    · exact fun e f => Login.notAfter_total e.key f.key
  have hkeys : p.listing.Pairwise fun e f => e.key ≠ f.key :=
    h.pairwise_key_ne.perm (List.mergeSort_perm ..).symm fun hne => hne.symm
  exact (hsorted.and hkeys).imp fun h => Login.before_of_notAfter_of_ne h.1 h.2

/-- The statistics tally the hosts of the list. -/
theorem tallies_perHost (hsize : p.pooled.length < UInt64.size) :
    p.stats.perHost.Tallies (p.listing.map fun e => e.key.host) := by
  have hperm : (p.listing.map fun e => e.key.host).Perm (p.pooled.map fun e => e.key.host) :=
    (List.mergeSort_perm ..).map _
  have hpooled : p.stats.perHost.Tallies (p.pooled.map fun e => e.key.host) := by
    have htallies := Counts.tallies_foldl_increment (p.pooled.map fun e => e.key.host)
      (by rwa [List.length_map])
    rwa [List.foldl_map] at htallies
  intro host n
  rw [hpooled, hperm.mem_iff, hperm.count_eq]

/-- **The two views of a pool agree.** -/
theorem Tidy.overview (h : p.Tidy) (hsize : p.pooled.length < UInt64.size) : p.Overview := by
  have hitems : p.listing.Perm p.pooled := List.mergeSort_perm ..
  have htotal : p.stats.total.toNat = p.listing.length :=
    (UInt64.toNat_ofNat_of_lt' hsize).trans hitems.length_eq.symm
  have htallies := tallies_perHost hsize
  refine ⟨h.pairwise_listing, hitems, htotal, fun host n => ?_, fun x => htallies.pos, ?_⟩
  · rw [htallies, List.mem_map, List.count, List.countP_map]
    rfl
  · rw [htallies.sum_eq (by rwa [List.length_map, hitems.length_eq]), List.length_map, htotal]

end Pool

end RemoteShell
