import RemoteShell.Proofs.Pool.Growth
import RemoteShell.Proofs.Pool.Returned

/-!
# Connections that have left the pool

What has left the pool stays out of it, and only a search that had it in hand by then may still end
with it: a search that begins later does not, nor one that queued at that moment.  So nobody who
looks for a connection after one was taken out, for whatever reason, is given the same one again.

An order to take out one connection is about that connection, not about its login: when another one
has taken its place, the order leaves the pool as it is.

## Main definitions

* `Traffic.Retired`: a connection is out of use but for the searches that have it in hand

## Main results

* `retired_of_delivered`: what is in the pool no more is retired
* `start_one_of_lookup_ne`: an order about a connection spares the one in its place
-/

namespace RemoteShell

namespace Pool

variable {p q : Pool} {c : ConnId} {k : Login} {cs : List ConnId} {e f : Entry}

theorem Knows.mem_ids (h : p.Knows c k) : c ∈ p.ids := by
  obtain ⟨e, he, hid, -⟩ := h
  exact Pool.mem_ids.mpr ⟨e, he, hid⟩

theorem Tidy.not_gone_of_holds (ht : p.Tidy) (hc : p.holds c = true) : ¬ p.Gone c := by
  obtain ⟨e, he, rfl, hp⟩ := ht.holds_iff.mp hc
  exact ht.not_gone he hp

theorem Tidy.holds_of_gone (ht : p.Tidy) (hc : p.Gone c) : p.holds c = false :=
  Bool.eq_false_iff.mpr fun hholds => ht.not_gone_of_holds hholds hc

/-- A connection that has a record and is not in the pool has left it. -/
theorem Tidy.gone_of_not_holds (ht : p.Tidy) (hc : c ∈ p.ids) (hout : p.holds c = false) :
    p.Gone c := by
  obtain ⟨e, he, hid⟩ := mem_ids.mp hc
  by_contra hgone
  have hholds := (ht.holds_iff_not_gone ⟨e, he, hid, rfl⟩).mpr hgone
  rw [hout] at hholds
  cases hholds

/-- A change that takes nothing out leaves every connection where it is. -/
theorem TakesOut.holds_eq (h : p.TakesOut [] q) (ht : p.Tidy) (c : ConnId) :
    q.holds c = p.holds c := by
  rw [Bool.eq_iff_iff, (h.tidy ht).holds_iff, ht.holds_iff]
  constructor
  · rintro ⟨e, he, rfl, hp⟩
    obtain ⟨e₀, he₀, hid, -, hpool⟩ := h.exists_of_mem he
    exact ⟨e₀, he₀, hid.symm, (hpool.mp hp).1⟩
  · rintro ⟨e₀, he₀, rfl, hp⟩
    obtain ⟨e, he, hid, -, hpool⟩ := h.exists_mem he₀
    exact ⟨e, he, hid, hpool.mpr ⟨hp, List.not_mem_nil⟩⟩

/-- **An order about a connection spares the one in its place.** -/
theorem start_one_of_lookup_ne (ht : p.Tidy) (he : e ∈ p.entries) (hf : p.lookup e.key = some f)
    (hne : f.id ≠ e.id) (now : Instant) : (Order.one e.id).start now p = (p, .ends 0) := by
  have hout : ¬ p.holds e.id = true := by
    intro hholds
    obtain ⟨g, hg, hid, hp⟩ := ht.holds_iff.mp hholds
    obtain rfl := ht.eq_of_id hg he hid
    have hlookup := ht.lookup_eq_some_iff.mpr ⟨hg, hp, rfl⟩
    exact hne (congrArg Entry.id (Option.some.inj (hf.symm.trans hlookup)))
  exact if_neg hout

/-- An order about a connection leaves it out of the pool. -/
theorem gone_invalidate (ht : p.Tidy) (hc : c ∈ p.ids) : (Removal.invalidate c p).1.Gone c := by
  unfold Removal.invalidate
  split
  · obtain ⟨e, he, hid⟩ := mem_ids.mp hc
    exact (TakesOut.remove ⟨e, he, hid, rfl⟩).gone_iff.mpr (.inr (List.mem_singleton_self c))
  · next hout => exact ht.gone_of_not_holds hc (Bool.eq_false_iff.mpr hout)

end Pool

namespace Traffic

open Pool

variable {s t : Traffic} {now : Instant} {e : Event} {id : CallId} {c : ConnId}
  {es : List (Instant × Event)} {settings : PoolSettings} {walk : Walk}

theorem Sound.gone_run (h : s.Sound) (hs : s.run es = some t) (hc : s.pool.Gone c) :
    t.pool.Gone c := by
  induction es generalizing s with
  | nil => exact Option.some.inj hs ▸ hc
  | cons x es ih =>
    obtain ⟨⟨u, o⟩, hstep, hrest⟩ := Option.bind_eq_some_iff.mp hs
    exact ih (h.step hstep) hrest (h.gone hstep hc)

/-- **Whoever has in hand what has left the pool** has had it in hand since before it left. -/
theorem Sound.inHand_run (h : s.Sound) (hs : s.run es = some t) (hc : s.pool.Gone c)
    (hi : t.InHand id c) : s.InHand id c := by
  induction es generalizing s with
  | nil => exact Option.some.inj hs ▸ hi
  | cons x es ih =>
    obtain ⟨⟨u, o⟩, hstep, hrest⟩ := Option.bind_eq_some_iff.mp hs
    have hgone : u.pool.Gone c := h.gone hstep hc
    exact ((h.happens hstep).inHand (ih (h.step hstep) hrest hgone) hgone).1

/-- **A connection is retired**: it is not in the pool and does not come back, and no search ends
with it any more but one that has it in hand. -/
def Retired (s : Traffic) (c : ConnId) : Prop :=
  ∀ es t, s.run es = some t → t.pool.holds c = false ∧
    ∀ id now e u, e.call? = some id → t.step now e = some (u, some (.found (.ok c))) →
      s.InHand id c

theorem Sound.retired (h : s.Sound) (hc : s.pool.Gone c) : s.Retired c := by
  intro es t hs
  have ht : t.Sound := h.run hs
  have hgone : t.pool.Gone c := h.gone_run hs hc
  refine ⟨ht.tidy.holds_of_gone hgone, fun id now e u he hstep => ?_⟩
  obtain ⟨i, a, g, rfl, -, -, -, hhand⟩ := (ht.happens hstep).found rfl
  cases he
  exact h.inHand_run hs hc (hhand hgone)

/-- **What is in the pool no more is retired.** -/
theorem retired_of_delivered (hs : (idle settings walk).run es = some s) (hc : c ∈ delivered es)
    (hout : s.pool.holds c = false) : s.Retired c := by
  have hsound : s.Sound := Sound.run (.idle settings walk) hs
  exact hsound.retired
    (hsound.tidy.gone_of_not_holds (mem_ids.mpr ((mem_delivered_iff hs).mp hc)) hout)

end Traffic

end RemoteShell
