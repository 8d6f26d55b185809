import RemoteShell.Proofs.Pool.Soundness

/-!
# One search at a time

At every moment, of the searches for one login at most one has passed the lock, so that at most one
connection to a login is being opened, and a new connection takes nobody's place in the pool.  The
lock of a login is made when it is asked for and dropped again behind the back of the searches; this
does no harm, because it is dropped only while nobody has a handle on it.

## Main definitions

* `Traffic.Inside`: a search that has passed the lock of a login
* `Traffic.connects`: the calls that wait for a new connection to a login

## Main results

* `Sound.eq_of_inside`, `Sound.vacant_of_connecting`: what sound traffic excludes
* `one_inside_each_login`: the same for every moment of a run
-/

namespace RemoteShell.Traffic

open Pool

variable {s : Traffic} {k : Login} {i j : CallId} {g : Get} {walk : Walk}

/-- A call is a search that has passed the lock of a login. -/
def Inside (s : Traffic) (k : Login) (id : CallId) : Prop :=
  ∃ g, s.calls.get? id = some (.search g) ∧ g.target.login = k ∧ g.phase ≠ .queued

/-- Does a call wait for a new connection to a login? -/
def connectsTo (p : Pool) (k : Login) (c : Call) : Bool :=
  match c.wait p with
  | .connect t _ => t.login = k
  | _ => false

/-- The calls that wait for a new connection to a login. -/
def connects (s : Traffic) (k : Login) : List CallId :=
  (s.calls.filter fun x => connectsTo s.pool k x.2).map Prod.fst

theorem connectsTo_iff {p : Pool} {c : Call} :
    connectsTo p k c = true ↔ ∃ g, c = .search g ∧ g.target.login = k ∧ g.phase = .connecting := by
  cases c with
  | removal r => simp [connectsTo, Call.wait, Removal.wait]
  | search g =>
    obtain ⟨caller, t, lock, phase⟩ := g
    cases phase <;> simp [connectsTo, Call.wait, Get.wait]

/-- Searches for one login that have passed the lock are the same. -/
theorem Sound.eq_of_inside (h : s.Sound) (hi : s.Inside k i) (hj : s.Inside k j) : i = j := by
  obtain ⟨g, hg, hgk, hgq⟩ := hi
  obtain ⟨g', hg', hgk', hgq'⟩ := hj
  have hmem := Assoc.mem_of_get? hg
  have hmem' := Assoc.mem_of_get? hg'
  have husers (i : CallId) (g : Get) (hg : (i, Call.search g) ∈ s.calls) :
      g.user ∈ users s.calls ++ [] :=
    List.mem_append_left _ (mem_users.mpr ⟨i, g, hg, rfl⟩)
  have hsame : g.user = g'.user :=
    h.guarded.eq_of_inside (husers i g hmem) (husers j g' hmem') (hgk.trans hgk'.symm)
      (by simp [Get.user, hgq]) (by simp [Get.user, hgq'])
  calc i = g.caller := (h.callers i g hmem).symm
    _ = g'.caller := congrArg Cells.User.caller hsame
    _ = j := h.callers j g' hmem'

theorem Sound.inside_of_mem_connects (h : s.Sound) (hi : i ∈ s.connects k) : s.Inside k i := by
  obtain ⟨⟨i, c⟩, hmem, rfl⟩ := List.mem_map.mp hi
  obtain ⟨hmem, hc⟩ := List.mem_filter.mp hmem
  obtain ⟨g, rfl, hk, hphase⟩ := connectsTo_iff.mp hc
  exact ⟨g, h.keyed.get?_eq_some_iff.mpr hmem, hk, by simp [hphase]⟩

theorem Sound.length_connects_le (h : s.Sound) (k : Login) : (s.connects k).length ≤ 1 := by
  have hnodup : (s.connects k).Nodup := (List.filter_sublist.map _).nodup h.keyed
  have hsame : ∀ i ∈ s.connects k, ∀ j ∈ s.connects k, i = j := by
    intro i hi j hj
    exact h.eq_of_inside (h.inside_of_mem_connects hi) (h.inside_of_mem_connects hj)
  match hl : s.connects k with
  | [] => simp
  | [i] => simp
  | i :: j :: l =>
    rw [hl] at hnodup hsame
    have : i = j := hsame i (by simp) j (by simp)
    simp [this] at hnodup

/-- While a search waits for a new connection, nothing is pooled under its login. -/
theorem Sound.vacant_of_connecting (h : s.Sound) (hg : s.calls.get? i = some (.search g))
    (hphase : g.phase = .connecting) : s.pool.Vacant g.target.login := by
  have hfits : g.Fits s.pool := h.fits _ (Assoc.mem_of_get? hg)
  rwa [Get.Fits, hphase] at hfits

/-- **One search at a time**: at every moment of any run, searches for one login that have passed
its lock are the same, at most one connection to a login is being opened, and when it is pooled it
comes to what is in the pool, and takes nobody's place. -/
theorem one_inside_each_login (settings : PoolSettings) (es : List (Instant × Event))
    (h : (idle settings walk).run es = some s) :
    (∀ k i j, s.Inside k i → s.Inside k j → i = j) ∧ (∀ k, (s.connects k).length ≤ 1) ∧
      ∀ i g, s.calls.get? i = some (.search g) → g.phase = .connecting →
        s.pool.lookup g.target.login = none ∧
          ∀ c now, (s.pool.insert c g.target now).pooled =
            s.pool.pooled ++ [s.pool.opened c g.target now] := by
  have hs : s.Sound := Sound.run (.idle settings walk) h
  refine ⟨fun k i j => hs.eq_of_inside, hs.length_connects_le, ?_⟩
  intro i g hg hphase
  have hv := hs.vacant_of_connecting hg hphase
  exact ⟨lookup_eq_none_iff.mpr hv, fun c now => pooled_insert hv⟩

/-- Of two searches for one login the first is given up while it connects: the second comes to
connect, and it alone is inside. -/
theorem one_inside_after_abandon :
    ∃ s, (idle ⟨2, .ofSecs 300, .ofSecs 30⟩).run
        [(.start, .search 0 ⟨"a", 22, some "u", none, none⟩),
          (.start, .search 1 ⟨"a", 22, some "u", none, none⟩),
          (.start, .abandon 0), (.start, .answer 1 .admitted)] = some s ∧
      s.connects ⟨"u", "a", 22⟩ = [1] ∧ ∀ i, s.Inside ⟨"u", "a", 22⟩ i → i = 1 := by
  obtain ⟨s, hs, hconnects⟩ := Option.map_eq_some_iff.mp
    (show ((idle ⟨2, .ofSecs 300, .ofSecs 30⟩).run
        [(.start, .search 0 ⟨"a", 22, some "u", none, none⟩),
          (.start, .search 1 ⟨"a", 22, some "u", none, none⟩),
          (.start, .abandon 0), (.start, .answer 1 .admitted)]).map
      (·.connects ⟨"u", "a", 22⟩) = some [1] by decide)
  refine ⟨s, hs, hconnects, fun i hi => ?_⟩
  have hinside : s.Inside ⟨"u", "a", 22⟩ 1 :=
    Sound.inside_of_mem_connects (Sound.run (.idle _ _) hs) (by simp [hconnects])
  exact (one_inside_each_login _ _ hs).1 _ _ _ hi hinside

end RemoteShell.Traffic
