import Mathlib.Data.Finset.Card
import SequenceDiagram.Proofs.Distinct
import SequenceDiagram.Proofs.Memory

namespace SequenceDiagram

/-!
# What the measurement cache remembers

The cache holds the texts that were used last, so whether a text has to be measured can be read off
the uses that went before.

* `recent` lists what was used, latest use first and without repetitions.
* `Forgotten`: something was never used, or too many others were used since. `mem_take_recent_iff`
  finds the rest at the front of `recent`.
* `MeasureCache.ask` also tells what the measure behind the cache is asked.
* `MeasureCache.Remembers` is the invariant: the cache holds the front of `recent`, with the widths.
  `Remembers.use` keeps it for one use, and `exists_after` for all of them.
* `measures_what_is_forgotten` is the result: the answers are those of the measure, and it is asked
  exactly for what is forgotten.
-/

/-! ### Recent uses -/

section Recent

variable {α : Type} [DecidableEq α]

/-- What was used, latest use first. -/
def recent (past : List α) : List α := past.reverse.eraseDups

theorem nodup_recent (past : List α) : (recent past).Nodup := nodup_eraseDups _

theorem mem_recent {past : List α} {x : α} : x ∈ recent past ↔ x ∈ past := by
  rw [recent, List.mem_eraseDups, List.mem_reverse]

/-- There are as many recent uses as there are different things in the past. -/
theorem length_recent (past : List α) : (recent past).length = past.toFinset.card := by
  have hsame : (recent past).toFinset = past.toFinset := by
    ext x
    rw [List.mem_toFinset, List.mem_toFinset, mem_recent]
  rw [← List.toFinset_card_of_nodup (nodup_recent past), hsame]

/-- What is used now comes to the front. -/
theorem recent_concat (past : List α) (x : α) :
    recent (past ++ [x]) = x :: (recent past).filter (· ≠ x) := by
  rw [recent, List.reverse_append, List.reverse_singleton, List.singleton_append,
    List.eraseDups_cons, eraseDups_filter, recent]
  congr 1
  exact List.filter_congr fun y _ => by by_cases h : y = x <;> simp [h]

/-- In front of something stands what was used since its last use. -/
theorem exists_recent_eq {before since : List α} {x : α} (hx : x ∉ since) :
    ∃ rest, recent (before ++ x :: since) = recent since ++ x :: rest := by
  have hremoved : (x :: before.reverse).removeAll since.reverse =
      x :: before.reverse.removeAll since.reverse := by
    simp [List.removeAll, hx]
  refine ⟨(before.reverse.removeAll since.reverse).eraseDups.filter fun b => !b == x, ?_⟩
  rw [recent, List.reverse_append, List.reverse_cons, List.append_assoc, List.singleton_append,
    List.eraseDups_append, hremoved, List.eraseDups_cons, eraseDups_filter, recent]

/-- Something was never used, or at least `n` different other things were used since its last
    use. -/
def Forgotten (n : Nat) (past : List α) (x : α) : Prop :=
  x ∉ past ∨ ∃ before since, past = before ++ x :: since ∧ x ∉ since ∧ n ≤ since.toFinset.card

/-- **What is not forgotten was used recently**: it is among the first `n`. -/
theorem mem_take_recent_iff {n : Nat} {past : List α} {x : α} :
    x ∈ (recent past).take n ↔ ¬ Forgotten n past x := by
  -- what stands behind the last use decides
  have hsplit : ∀ before since, past = before ++ x :: since → x ∉ since →
      (x ∈ (recent past).take n ↔ since.toFinset.card < n) := by
    rintro before since rfl hx
    obtain ⟨rest, hrest⟩ : ∃ rest, recent (before ++ x :: since) = recent since ++ x :: rest :=
      exists_recent_eq hx
    have hmem : x ∈ recent (before ++ x :: since) := mem_recent.mpr (by simp)
    rw [List.mem_take_iff_idxOf_lt hmem, hrest,
      List.idxOf_append_of_notMem (mt mem_recent.mp hx), List.idxOf_cons_self, Nat.add_zero,
      length_recent]
  constructor
  · rintro htake (hnever | ⟨before, since, heq, hx, hmany⟩)
    · exact hnever (mem_recent.mp (List.mem_of_mem_take htake))
    · exact Nat.not_lt.mpr hmany ((hsplit before since heq hx).mp htake)
  · intro hkept
    have hpast : x ∈ past := by
      by_contra hnever
      exact hkept (.inl hnever)
    obtain ⟨later, earlier, hreverse, hx⟩ :=
      List.eq_append_cons_of_mem (List.mem_reverse.mpr hpast)
    have heq : past = earlier.reverse ++ x :: later.reverse := by
      rw [← List.reverse_reverse past, hreverse]
      simp
    have hlater : x ∉ later.reverse := mt List.mem_reverse.mp hx
    rw [hsplit _ _ heq hlater]
    by_contra hmany
    exact hkept (.inr ⟨_, _, heq, hlater, Nat.not_lt.mp hmany⟩)

instance (n : Nat) (past : List α) (x : α) : Decidable (Forgotten n past x) :=
  decidable_of_iff (x ∉ (recent past).take n) (by rw [mem_take_recent_iff, not_not])

/-- To take out one element moves the others up by at most one place. -/
theorem take_filter_ne {xs : List α} (h : xs.Nodup) (x : α) (n : Nat) :
    (xs.filter (· ≠ x)).take n = ((xs.take (n + 1)).filter (· ≠ x)).take n := by
  induction xs generalizing n with
  | nil => simp
  | cons y ys ih =>
    obtain ⟨hy, hys⟩ := List.nodup_cons.mp h
    cases n with
    | zero => simp
    | succ n =>
      rw [List.take_succ_cons]
      by_cases hyx : y = x
      · -- all others are kept
        subst hyx
        have hothers : ∀ zs : List α, zs ⊆ ys → zs.filter (· ≠ y) = zs := fun zs hzs =>
          List.filter_eq_self.mpr fun z hz => by
            simpa using fun heq : z = y => hy (heq ▸ hzs hz)
        rw [List.filter_cons_of_neg (by simp), List.filter_cons_of_neg (by simp),
          hothers ys (List.Subset.refl _), hothers _ (List.take_subset _ _), List.take_take,
          Nat.min_self]
      · rw [List.filter_cons_of_pos (by simpa using hyx),
          List.filter_cons_of_pos (by simpa using hyx), List.take_succ_cons, List.take_succ_cons,
          ih hys]

variable {past : List α} {x : α} {n : Nat}

/-- What is used now is kept in front of the others. -/
theorem take_recent_concat (hn : 0 < n) : (recent (past ++ [x])).take n =
    x :: (((recent past).take n).filter (· ≠ x)).take (n - 1) := by
  obtain ⟨n, rfl⟩ := Nat.exists_eq_add_one.mpr hn
  rw [recent_concat, List.take_succ_cons, take_filter_ne (nodup_recent past), Nat.add_sub_cancel]

/-- If it was kept before, all others stay. -/
theorem take_recent_concat_of_mem (hn : 0 < n) (h : x ∈ (recent past).take n) :
    (recent (past ++ [x])).take n = x :: ((recent past).take n).filter (· ≠ x) := by
  rw [take_recent_concat hn, List.take_of_length_le]
  have hfewer : (((recent past).take n).filter (· ≠ x)).length < ((recent past).take n).length :=
    List.length_filter_lt_length_iff_exists.mpr ⟨x, h, by simp⟩
  exact Nat.le_sub_one_of_lt (hfewer.trans_le (List.length_take_le _ _))

/-- If it was not kept before, the last one goes where there is no room. -/
theorem take_recent_concat_of_not_mem (hn : 0 < n) (h : x ∉ (recent past).take n) :
    (recent (past ++ [x])).take n = (x :: (recent past).take n).take n := by
  have hothers : ((recent past).take n).filter (· ≠ x) = (recent past).take n :=
    List.filter_eq_self.mpr fun y hy => by simpa using fun heq : y = x => h (heq ▸ hy)
  obtain ⟨n, rfl⟩ := Nat.exists_eq_add_one.mpr hn
  rw [take_recent_concat hn, hothers, List.take_succ_cons, Nat.add_sub_cancel]

end Recent

/-! ### What the measure is asked -/

namespace MeasureCache

/-- A text in its style. -/
abbrev Key := String × TextStyle

/-- The width of a text, from a measure that may do more than answer; it is asked only if the text
    is not in the cache. -/
def measureThrough {m : Type → Type} [Monad m] (inner : String → TextStyle → m Binary32)
    (text : String) (style : TextStyle) : StateT MeasureCache m Binary32 := fun cache =>
  match cache.lookup? (text, style) with
  | some width => pure (width, cache.touch (text, style) width)
  | none => do
    let width ← inner text style
    pure (width, cache.insert (text, style) width)

/-- With a measure that only answers, this is the cache itself. -/
theorem measureThrough_id (inner : TextMeasure) :
    measureThrough (m := Id) inner = measure inner := by
  funext text style cache
  unfold measureThrough measure
  cases cache.lookup? (text, style) <;> rfl

/-- A measure that notes what it is asked. -/
def noting (inner : TextMeasure) (text : String) (style : TextStyle) :
    StateM (List Key) Binary32 := fun asked => (inner text style, asked ++ [(text, style)])

/-- The width of a text, together with what the measure behind the cache was asked for it. -/
def ask (inner : TextMeasure) (key : Key) : StateM MeasureCache (Binary32 × List Key) :=
  fun cache =>
    let ((width, after), asked) := (measureThrough (noting inner) key.1 key.2 cache).run []
    ((width, asked), after)

/-- The measure is asked for what the cache does not hold; the rest is as in `measure`. -/
theorem run_ask (inner : TextMeasure) (key : Key) (cache : MeasureCache) :
    let (width, after) := (measure inner key.1 key.2).run cache
    (ask inner key).run cache =
      ((width, if (cache.lookup? key).isSome then [] else [key]), after) := by
  unfold ask measureThrough measure StateT.run
  cases h : cache.lookup? key <;> simp [h] <;> rfl

/-! ### What the cache remembers -/

/-- The cache holds the `n` texts that were used last, latest use first, with their widths. -/
structure Remembers (inner : TextMeasure) (n : Nat) (past : List Key) (cache : MeasureCache) :
    Prop where
  capacity_eq : cache.capacity = n
  entries_eq : cache.entries = ((recent past).take n).map fun key => (key, inner key.1 key.2)

namespace Remembers

variable {inner : TextMeasure} {n : Nat} {past : List Key} {cache : MeasureCache} {key : Key}

theorem of_empty (inner : TextMeasure) (capacity : Nat) :
    (empty capacity).Remembers inner (max capacity 1) [] where
  capacity_eq := rfl
  entries_eq := by simp [empty, recent]

/-- The width of what is forgotten is lost. -/
theorem lookup?_of_forgotten (h : cache.Remembers inner n past)
    (hforgotten : Forgotten n past key) : cache.lookup? key = none := by
  rw [lookup?, h.entries_eq, Option.map_eq_none_iff, List.find?_eq_none]
  intro e he hkey
  obtain ⟨k, hk, rfl⟩ := List.mem_map.mp he
  obtain rfl : k = key := of_decide_eq_true hkey
  exact mem_take_recent_iff.mp hk hforgotten

/-- The width of the rest is kept. -/
theorem lookup?_of_kept (h : cache.Remembers inner n past) (hkept : ¬ Forgotten n past key) :
    cache.lookup? key = some (inner key.1 key.2) := by
  have hmem : (key, inner key.1 key.2) ∈ cache.entries := by
    rw [h.entries_eq]
    exact List.mem_map_of_mem (mem_take_recent_iff.mpr hkept)
  rw [lookup?]
  cases hfind : cache.entries.find? (fun e => e.1 = key) with
  | none => exact absurd (decide_eq_true rfl) (List.find?_eq_none.mp hfind _ hmem)
  | some e =>
    have hkey : e.1 = key := by simpa using List.find?_some hfind
    have hentry := List.mem_of_find?_eq_some hfind
    rw [h.entries_eq] at hentry
    obtain ⟨k, -, rfl⟩ := List.mem_map.mp hentry
    obtain rfl : k = key := hkey
    rfl

/-- What the cache holds after a hit. -/
theorem touch (h : cache.Remembers inner n past) (hn : 0 < n) (hkept : ¬ Forgotten n past key) :
    (cache.touch key (inner key.1 key.2)).Remembers inner n (past ++ [key]) where
  capacity_eq := h.capacity_eq
  entries_eq := by
    rw [take_recent_concat_of_mem hn (mem_take_recent_iff.mpr hkept), MeasureCache.touch,
      h.entries_eq, List.filter_map]
    rfl

/-- What the cache holds after a miss. -/
theorem insert (h : cache.Remembers inner n past) (hn : 0 < n)
    (hforgotten : Forgotten n past key) :
    (cache.insert key (inner key.1 key.2)).Remembers inner n (past ++ [key]) where
  capacity_eq := h.capacity_eq
  entries_eq := by
    have hlost := mt mem_take_recent_iff.mp (not_not_intro hforgotten)
    rw [take_recent_concat_of_not_mem hn hlost, MeasureCache.insert, h.entries_eq, h.capacity_eq]
    simp only [List.map_take, List.map_cons]

/-- **One use.** The measure is asked for what is forgotten, and the use is remembered. -/
theorem use (h : cache.Remembers inner n past) (hn : 0 < n) (key : Key) :
    ∃ after, after.Remembers inner n (past ++ [key]) ∧
      (measure inner key.1 key.2).run cache = (inner key.1 key.2, after) ∧
      (ask inner key).run cache =
        ((inner key.1 key.2, if Forgotten n past key then [key] else []), after) ∧
      after.misses = cache.misses + if Forgotten n past key then 1 else 0 := by
  have hask := run_ask inner key cache
  by_cases hforgotten : Forgotten n past key
  · have hlookup := h.lookup?_of_forgotten hforgotten
    have hrun : (measure inner key.1 key.2).run cache =
        (inner key.1 key.2, cache.insert key (inner key.1 key.2)) := by
      simp only [measure, StateT.run, hlookup]
    rw [hrun, hlookup] at hask
    rw [if_pos hforgotten, if_pos hforgotten]
    exact ⟨_, h.insert hn hforgotten, hrun, hask, rfl⟩
  · have hlookup := h.lookup?_of_kept hforgotten
    have hrun : (measure inner key.1 key.2).run cache =
        (inner key.1 key.2, cache.touch key (inner key.1 key.2)) := by
      simp only [measure, StateT.run, hlookup]
    rw [hrun, hlookup] at hask
    rw [if_neg hforgotten, if_neg hforgotten]
    exact ⟨_, h.touch hn hforgotten, hrun, hask, rfl⟩

end Remembers

/-! ### All uses -/

/-- One more use comes after all others. -/
theorem run_mapM_concat {β : Type} {f : Key → StateM MeasureCache β} {uses : List Key} {key : Key}
    {before between after : MeasureCache} {ys : List β} {y : β}
    (h : (uses.mapM f).run before = (ys, between)) (h' : (f key).run between = (y, after)) :
    ((uses ++ [key]).mapM f).run before = (ys ++ [y], after) := by
  have hrun : ((uses ++ [key]).mapM f).run before =
      (((uses.mapM f).run before).1 ++ [((f key).run ((uses.mapM f).run before).2).1],
        ((f key).run ((uses.mapM f).run before).2).2) := by
    rw [List.mapM_append]
    rfl
  rw [hrun, h, h']

/-- What comes out of each use: the width, and what the measure is asked for it. -/
def outcomes (inner : TextMeasure) (n : Nat) (uses : List Key) : List (Binary32 × List Key) :=
  uses.zipIdx.map fun (key, i) =>
    (inner key.1 key.2, if Forgotten n (uses.take i) key then [key] else [])

theorem outcomes_concat (inner : TextMeasure) (n : Nat) (uses : List Key) (key : Key) :
    outcomes inner n (uses ++ [key]) = outcomes inner n uses ++
      [(inner key.1 key.2, if Forgotten n uses key then [key] else [])] := by
  unfold outcomes
  rw [List.zipIdx_append, List.map_append]
  congr 1
  · -- what comes later makes no difference
    refine List.map_congr_left fun (key', i) hx => ?_
    have hlt : i < uses.length := by simpa using List.snd_lt_of_mem_zipIdx hx
    dsimp only
    rw [List.take_append_of_le_length hlt.le]
  · simp

/-- **All uses.** After some uses the cache remembers them, and has counted what was measured. -/
theorem exists_after (inner : TextMeasure) (capacity : Nat) (uses : List Key) :
    ∃ after, after.Remembers inner (max capacity 1) uses ∧
      (uses.mapM fun key => measure inner key.1 key.2).run (empty capacity) =
        (uses.map fun key => inner key.1 key.2, after) ∧
      (uses.mapM (ask inner)).run (empty capacity) =
        (outcomes inner (max capacity 1) uses, after) ∧
      after.misses =
        (outcomes inner (max capacity 1) uses).countP fun outcome => outcome.2 ≠ [] := by
  induction uses using List.reverseRecOn with
  | nil => exact ⟨_, .of_empty inner capacity, rfl, rfl, rfl⟩
  | append_singleton uses key ih =>
    obtain ⟨before, hbefore, hmeasure, hask, hmisses⟩ := ih
    obtain ⟨after, hafter, hmeasure', hask', hmisses'⟩ := hbefore.use (by omega) key
    refine ⟨after, hafter, ?_, ?_, ?_⟩
    · rw [run_mapM_concat hmeasure hmeasure', List.map_append, List.map_singleton]
    · rw [run_mapM_concat hask hask', outcomes_concat]
    · rw [outcomes_concat, List.countP_append, hmisses', hmisses]
      split <;> rfl

/-- **The cache measures what is forgotten, and this does not show.** Every answer is that of the
    measure. For a use the measure is asked exactly if the text was never used before, or if since
    its last use at least as many others were used as there is room for; these uses are counted as
    misses. Until there is no more room, the cache holds every text that was used. -/
theorem measures_what_is_forgotten (inner : TextMeasure) (capacity : Nat) (uses : List Key) :
    let run := (uses.mapM (ask inner)).run (empty capacity)
    (uses.mapM fun key => measure inner key.1 key.2).run (empty capacity) =
        (uses.map fun key => inner key.1 key.2, run.2) ∧
      run.1 = outcomes inner (max capacity 1) uses ∧
      run.2.misses = (run.1.countP fun outcome => outcome.2 ≠ []) ∧
      run.2.size = min (max capacity 1) uses.toFinset.card := by
  obtain ⟨after, hafter, hmeasure, hask, hmisses⟩ := exists_after inner capacity uses
  rw [hask]
  refine ⟨hmeasure, rfl, hmisses, ?_⟩
  rw [size, hafter.entries_eq, List.length_map, List.length_take, length_recent]

-- With room for two texts, the third one takes the place of the one that was not used since.
example :
    let key (text : String) : Key := (text, .participant)
    let run := ((["a", "b", "a", "c", "a", "b"].map key).mapM (ask fun _ _ => 1)).run (empty 2)
    run.1.map (·.2) = [[key "a"], [key "b"], [], [key "c"], [], [key "b"]] := by
  decide +kernel

end MeasureCache

end SequenceDiagram
