import ElementManifest.Proofs.CacheSteps
import ElementManifest.Proofs.Paths
import Mathlib.Data.List.Dedup
import Mathlib.Data.List.DropRight

/-!
# The order of use

A cache keeps its contexts in the order in which they were last used, and gives up the
one at the front when it is full. So a cache is always `Tidy`: no path is kept twice and no
more than there is room for. And as long as every request is answered, what is kept can be
told from the requests alone:

> `paths_run`: the paths that were used last, each once.

> `keeps_last_used`: all this for every run of requests, and whether a request hands out
> what the one before it did.
-/

namespace ElementManifest

/-! ## Lists in order of use -/

theorem rtake_append_of_le {α : Type} (l : List α) {t : List α} {n : Nat} (h : n ≤ t.length) :
    (l ++ t).rtake n = t.rtake n := by
  have hdrop : (l ++ t).length - n = l.length + (t.length - n) := by
    rw [List.length_append]
    omega
  unfold List.rtake
  rw [hdrop, List.drop_append, Nat.add_sub_cancel_left, List.drop_eq_nil_of_le (by omega),
    List.nil_append]

theorem rtake_of_length_le {α : Type} {l : List α} {n : Nat} (h : l.length ≤ n) :
    l.rtake n = l := by
  unfold List.rtake
  rw [Nat.sub_eq_zero_of_le h, List.drop_zero]

theorem length_rtake_le {α : Type} (l : List α) (n : Nat) : (l.rtake n).length ≤ n := by
  unfold List.rtake
  rw [List.length_drop]
  omega

section Use

variable {α : Type} [DecidableEq α]

/-- A list in order of use after one more use: what is used moves to the end. -/
def use (a : α) (l : List α) : List α :=
  l.filter (· ≠ a) ++ [a]

/-- A list in order of use has everything once, where it was used last. -/
theorem use_dedup (a : α) (l : List α) : use a l.dedup = (l ++ [a]).dedup := by
  induction l with
  | nil => rfl
  | cons b l ih =>
    -- `dedup` keeps the last occurrence, so the first element stays only if it does not recur
    rw [List.cons_append]
    by_cases hb : b ∈ l
    · rw [List.dedup_cons_of_mem hb, List.dedup_cons_of_mem (List.mem_append_left _ hb), ih]
    · rw [List.dedup_cons_of_notMem hb]
      by_cases ha : b = a
      · have hmem : b ∈ l ++ [a] := List.mem_append_right l (List.mem_singleton.mpr ha)
        rw [List.dedup_cons_of_mem hmem, ← ih]
        simp [use, ha]
      · have hmem : b ∉ l ++ [a] := by simp [hb, ha]
        rw [List.dedup_cons_of_notMem hmem, ← ih]
        simp [use, ha]

theorem nodup_use {l : List α} (h : l.Nodup) (a : α) : (use a l).Nodup := by
  refine List.nodup_append.mpr ⟨h.filter _, List.nodup_singleton a, ?_⟩
  intro b hb c hc
  rw [List.mem_singleton.mp hc]
  exact of_decide_eq_true (List.mem_filter.mp hb).2

theorem length_use_le {a : α} {l : List α} (h : a ∈ l) : (use a l).length ≤ l.length := by
  have hlt : (l.filter (· ≠ a)).length < l.length :=
    List.length_filter_lt_length_iff_exists.mpr ⟨a, h, by simp⟩
  rw [use, List.length_append]
  exact hlt

theorem length_le_length_use {l : List α} (h : l.Nodup) (a : α) :
    l.length ≤ (use a l).length := by
  induction l with
  | nil => exact Nat.zero_le _
  | cons b l ih =>
    obtain ⟨hb, hl⟩ := List.nodup_cons.mp h
    by_cases ha : b = a
    · have hself : l.filter (· ≠ a) = l := by
        refine List.filter_eq_self.mpr ?_
        intro c hc
        have hne : c ≠ a := fun hca => hb (ha ▸ hca ▸ hc)
        exact decide_eq_true hne
      rw [use, List.filter_cons_of_neg (by simp [ha]), hself, List.length_append]
      exact Nat.le_refl _
    · have hrest := ih hl
      rw [use, List.length_append] at hrest ⊢
      rw [List.filter_cons_of_pos (by simp [ha]), List.length_cons, List.length_cons]
      omega

/-- What was dropped for want of room does not matter for what is kept later. -/
theorem rtake_use_rtake {l : List α} (h : l.Nodup) (a : α) (n : Nat) :
    (use a (l.rtake n)).rtake n = (use a l).rtake n := by
  by_cases hn : l.length ≤ n
  · rw [rtake_of_length_le hn]
  · have hlength : (l.rtake n).length = n := by
      unfold List.rtake
      rw [List.length_drop]
      omega
    -- what is left fills the room, so nothing of the dropped part comes back
    have hle : n ≤ (use a (l.rtake n)).length := by
      have hnodup : (l.rtake n).Nodup := h.sublist (List.drop_sublist _ _)
      have := length_le_length_use hnodup a
      omega
    have hsplit : use a l = (l.take (l.length - n)).filter (· ≠ a) ++ use a (l.rtake n) := by
      unfold use List.rtake
      rw [← List.append_assoc, ← List.filter_append, List.take_append_drop]
    rw [hsplit, rtake_append_of_le _ hle]

end Use

namespace Cache

/-! ## Kept paths -/

/-- The paths of the kept contexts, the least recently used one first. A path counts as
what it means and not as it is spelled. -/
def paths (c : Cache) : List (List Component) :=
  c.entries.map fun e => e.context.path.components

theorem isFor_iff {path : Path} {e : Cached} :
    isFor path e = true ↔ e.context.path.components = path.components :=
  Path.same_iff e.context.path path

theorem contains_without (c : Cache) (path : Path) : (c.without path).contains path = false := by
  unfold contains without
  simp

theorem paths_without (c : Cache) (path : Path) :
    (c.without path).paths = c.paths.filter (· ≠ path.components) := by
  have hfilter : ∀ e ∈ c.entries, (!isFor path e) =
      ((fun p => decide (p ≠ path.components)) ∘ fun e => e.context.path.components) e := by
    intro e _
    by_cases hfor : isFor path e = true
    · simp [hfor, isFor_iff.mp hfor]
    · have hpath : e.context.path.components ≠ path.components :=
        fun h => hfor (isFor_iff.mpr h)
      simp [hfor, hpath]
  unfold paths without
  rw [List.filter_map]
  exact congrArg _ (List.filter_congr hfilter)

theorem paths_touch {c : Cache} {path : Path} {e : Cached} (h : isFor path e = true) :
    (c.touch path e).paths = use path.components c.paths := by
  have hpaths := paths_without c path
  unfold paths at hpaths
  unfold paths touch use
  rw [List.map_append, hpaths, List.map_singleton, isFor_iff.mp h]

theorem paths_store (c : Cache) (context : Context) :
    (c.store context).2.paths = (use context.path.components c.paths).rtake c.capacity := by
  have hpaths := paths_without c context.path
  unfold paths at hpaths
  unfold paths store use List.rtake
  dsimp only
  rw [List.map_drop, List.map_append, hpaths, List.map_singleton, List.length_append,
    List.length_append, ← hpaths, List.length_map]
  rfl

/-! ## Tidy caches -/

/-- No path is kept twice, and there is room for all that is kept. -/
structure Tidy (c : Cache) : Prop where
  nodup : c.paths.Nodup
  fits : c.paths.length ≤ c.capacity

variable {c : Cache}

theorem tidy_ofCapacity (capacity : Nat) : (ofCapacity capacity).Tidy :=
  ⟨List.nodup_nil, Nat.zero_le _⟩

theorem Tidy.length_entries_le (h : c.Tidy) : c.entries.length ≤ c.capacity := by
  have hfits := h.fits
  unfold paths at hfits
  rw [List.length_map] at hfits
  exact hfits

theorem Tidy.without (h : c.Tidy) (path : Path) : (c.without path).Tidy := by
  have hlength := List.length_filter_le (fun p => decide (p ≠ path.components)) c.paths
  refine ⟨?_, ?_⟩
  · rw [paths_without]
    exact h.nodup.filter _
  · rw [paths_without]
    exact Nat.le_trans hlength h.fits

theorem Tidy.touch (h : c.Tidy) {path : Path} {e : Cached}
    (hfound : c.entries.find? (isFor path) = some e) : (c.touch path e).Tidy := by
  have hfor : isFor path e = true := List.find?_some hfound
  have hmem : path.components ∈ c.paths :=
    List.mem_map.mpr ⟨e, List.mem_of_find?_eq_some hfound, isFor_iff.mp hfor⟩
  refine ⟨?_, ?_⟩
  · rw [paths_touch hfor]
    exact nodup_use h.nodup _
  · rw [paths_touch hfor]
    exact Nat.le_trans (length_use_le hmem) h.fits

theorem Tidy.store (h : c.Tidy) (context : Context) : (c.store context).2.Tidy := by
  refine ⟨?_, ?_⟩
  · rw [paths_store]
    exact (nodup_use h.nodup _).sublist (List.drop_sublist _ _)
  · rw [paths_store]
    exact length_rtake_le _ _

theorem Tidy.request (h : c.Tidy) (fs : FileSystem) (path : Path) (text : String) :
    (c.request fs path text).2.Tidy := by
  have hserved := served fs c path text
  generalize c.request fs path text = result at hserved
  cases hserved with
  | hit e found _ => exact h.touch found
  | built context _ _ => exact (h.without path).store context
  | failed _ _ _ => exact h.without path

theorem capacity_request (fs : FileSystem) (c : Cache) (path : Path) (text : String) :
    (c.request fs path text).2.capacity = c.capacity := by
  have hserved := served fs c path text
  generalize c.request fs path text = result at hserved
  cases hserved with
  | hit _ _ _ => rfl
  | built _ _ _ => rfl
  | failed _ _ _ => rfl

/-- A request that is answered uses its path. -/
theorem paths_request {fs : FileSystem} {path : Path} {text : String} {e : Cached} (h : c.Tidy)
    (hok : (c.request fs path text).1 = .ok e) :
    (c.request fs path text).2.paths = (use path.components c.paths).rtake c.capacity := by
  have htidy := h.request fs path text
  have hserved := served fs c path text
  generalize c.request fs path text = result at hserved hok htidy
  cases hserved with
  | hit e found _ =>
    have hpaths := paths_touch (c := c) (List.find?_some found)
    have hfits : (c.touch path e).paths.length ≤ c.capacity := htidy.fits
    rw [hpaths] at hfits ⊢
    exact (rtake_of_length_le hfits).symm
  | built context _ build_eq =>
    obtain ⟨hpath, -⟩ := path_text_of_build build_eq
    rw [paths_store, paths_without, hpath]
    unfold use
    rw [List.filter_filter]
    simp only [Bool.and_self]
    rfl
  | failed _ _ _ => cases hok

end Cache

/-! ## Runs -/

/-- A request, with the files that there are at the time. -/
structure Request where
  fs : FileSystem
  path : Path
  text : String

/-- A cache with the requests so far and their answers, the last one first. -/
structure History where
  cache : Cache
  answers : List (Request × Except ExtractError Cached)

namespace History

/-- An empty cache before any request. -/
def start (capacity : Nat) : History :=
  ⟨.ofCapacity capacity, []⟩

/-- The answer to one more request. -/
def answer (h : History) (req : Request) : Except ExtractError Cached :=
  (h.cache.request req.fs req.path req.text).1

/-- What one more request leaves. -/
def step (h : History) (req : Request) : History :=
  ⟨(h.cache.request req.fs req.path req.text).2, (req, h.answer req) :: h.answers⟩

/-- What requests leave that are made one after the other on an empty cache. -/
def run (capacity : Nat) (requests : List Request) : History :=
  requests.foldl step (start capacity)

theorem run_concat (capacity : Nat) (requests : List Request) (req : Request) :
    run capacity (requests ++ [req]) = (run capacity requests).step req := by
  unfold run
  rw [List.foldl_append]
  rfl

/-- The context that a request has handed out, if it was one for this path. -/
def handedOut (path : Path) (x : Request × Except ExtractError Cached) : Option Cached :=
  if x.1.path.same path then x.2.toOption else none

/-- The context that the last answered request for a path has handed out. -/
def last? (h : History) (path : Path) : Option Cached :=
  h.answers.findSome? (handedOut path)

/-! ## What the answers tell -/

theorem last?_step_ok {h : History} {req : Request} {e : Cached} (hok : h.answer req = .ok e)
    (path : Path) :
    (h.step req).last? path = if req.path.same path then some e else h.last? path := by
  unfold last? step
  rw [hok, List.findSome?_cons]
  by_cases hsame : req.path.same path = true
  · rw [if_pos hsame, show handedOut path (req, .ok e) = some e from if_pos hsame]
  · rw [if_neg hsame, show handedOut path (req, .ok e) = none from if_neg hsame]

theorem last?_step_error {h : History} {req : Request} {error : ExtractError}
    (herror : h.answer req = .error error) (path : Path) :
    (h.step req).last? path = h.last? path := by
  have hnone : handedOut path (req, .error error) = none := ite_self none
  unfold last? step
  rw [herror, List.findSome?_cons, hnone]

theorem exists_answer_of_last? {h : History} {path : Path} {e : Cached}
    (hlast : h.last? path = some e) : ∃ x ∈ h.answers, x.2 = .ok e := by
  obtain ⟨x, hx, hsome⟩ := List.exists_of_findSome?_eq_some hlast
  refine ⟨x, hx, ?_⟩
  unfold handedOut at hsome
  obtain ⟨req, error | e'⟩ := x
  · rw [show Except.toOption (.error error : Except ExtractError Cached) = none from rfl,
      ite_self] at hsome
    cases hsome
  · split at hsome
    next => rw [Option.some.inj hsome]
    next => cases hsome

/-- What is kept for a path is what was handed out for it last, and a number that is given
to a context has never been given before. -/
structure Faithful (h : History) : Prop where
  kept : ∀ e ∈ h.cache.entries, ∀ path, Cache.isFor path e = true → h.last? path = some e
  numbered : ∀ x ∈ h.answers, ∀ e, x.2 = .ok e → e.serial < h.cache.stored

theorem Faithful.serial_lt {h : History} (hf : h.Faithful) {e : Cached}
    (he : e ∈ h.cache.entries) : e.serial < h.cache.stored := by
  have hlast := hf.kept e he e.context.path (Cache.isFor_iff.mpr rfl)
  obtain ⟨x, hx, hok⟩ := exists_answer_of_last? hlast
  exact hf.numbered x hx e hok

/-- A request that hands out `e` as the only context of its path keeps a history faithful,
when `e` has a number by then. -/
theorem Faithful.step_ok {h : History} (hf : h.Faithful) {req : Request} {e : Cached}
    (hok : h.answer req = .ok e) (hfor : Cache.isFor req.path e = true)
    (hstored : h.cache.stored ≤ (h.step req).cache.stored)
    (hserial : e.serial < (h.step req).cache.stored)
    (hentries : ∀ e' ∈ (h.step req).cache.entries,
      e' ∈ (h.cache.without req.path).entries ∨ e' = e) : (h.step req).Faithful := by
  constructor
  · intro e' he' path hpath
    rw [last?_step_ok hok]
    rcases hentries e' he' with hold | rfl
    · -- nothing else is kept for the path of the request, so this is for another one
      have hother : ¬ req.path.same path = true := by
        intro hsame
        refine Cache.not_isFor_of_mem_without hold ?_
        rw [Cache.isFor_iff] at hpath ⊢
        rw [hpath, (Path.same_iff _ _).mp hsame]
      rw [if_neg hother]
      exact hf.kept e' (Cache.mem_entries_without hold) path hpath
    · have hsame : req.path.same path = true := by
        rw [Path.same_iff, ← Cache.isFor_iff.mp hfor, Cache.isFor_iff.mp hpath]
      rw [if_pos hsame]
  · intro x hx e' he'
    rcases List.mem_cons.mp hx with rfl | hx
    · obtain rfl : e = e' := Except.ok.inj (hok.symm.trans he')
      exact hserial
    · exact Nat.lt_of_lt_of_le (hf.numbered x hx e' he') hstored

theorem Faithful.step {h : History} (hf : h.Faithful) (req : Request) :
    (h.step req).Faithful := by
  have hserved := Cache.served req.fs h.cache req.path req.text
  generalize hresult : h.cache.request req.fs req.path req.text = result at hserved
  have hanswer : h.answer req = result.1 := congrArg Prod.fst hresult
  have hcache : (h.step req).cache = result.2 := congrArg Prod.snd hresult
  -- what a request leaves in the cache was there before, or it is the answer itself
  cases hserved with
  | hit e found _ =>
    have hmem : e ∈ h.cache.entries := List.mem_of_find?_eq_some found
    refine hf.step_ok hanswer (List.find?_some found) ?_ ?_ ?_
    · rw [hcache]
      exact Nat.le_refl _
    · rw [hcache]
      exact hf.serial_lt hmem
    · intro e' he'
      rw [hcache] at he'
      rcases List.mem_append.mp he' with hold | hlast
      · exact Or.inl hold
      · exact Or.inr (List.mem_singleton.mp hlast)
  | built context _ build_eq =>
    obtain ⟨hpath, -⟩ := path_text_of_build build_eq
    refine hf.step_ok hanswer (Cache.isFor_iff.mpr (congrArg Path.components hpath)) ?_ ?_ ?_
    · rw [hcache]
      exact Nat.le_succ _
    · rw [hcache]
      exact Nat.lt_succ_self _
    · intro e' he'
      rw [hcache] at he'
      exact Cache.mem_entries_store he'
  | failed error _ _ =>
    constructor
    · intro e he path hpath
      rw [last?_step_error hanswer]
      rw [hcache] at he
      exact hf.kept e (Cache.mem_entries_without he) path hpath
    · intro x hx e he
      rw [hcache]
      rcases List.mem_cons.mp hx with rfl | hx
      · cases hanswer.symm.trans he
      · exact hf.numbered x hx e he

theorem faithful_run (capacity : Nat) (requests : List Request) :
    (run capacity requests).Faithful := by
  induction requests using List.reverseRecOn with
  | nil => exact ⟨nofun, nofun⟩
  | append_singleton requests req ih =>
    rw [run_concat]
    exact ih.step req

theorem tidy_run (capacity : Nat) (requests : List Request) :
    (run capacity requests).cache.Tidy ∧
      (run capacity requests).cache.capacity = max capacity 1 := by
  induction requests using List.reverseRecOn with
  | nil => exact ⟨Cache.tidy_ofCapacity capacity, rfl⟩
  | append_singleton requests req ih =>
    rw [run_concat]
    obtain ⟨htidy, hcapacity⟩ := ih
    exact ⟨htidy.request _ _ _, (Cache.capacity_request _ _ _ _).trans hcapacity⟩

/-- As long as every request is answered, the paths that were used last are kept. -/
theorem paths_run {capacity : Nat} {requests : List Request}
    (hall : ∀ x ∈ (run capacity requests).answers, x.2.isOk) :
    (run capacity requests).cache.paths =
      (requests.map (·.path.components)).dedup.rtake (max capacity 1) := by
  induction requests using List.reverseRecOn with
  | nil => exact (List.rtake_nil _).symm
  | append_singleton requests req ih =>
    rw [run_concat] at hall ⊢
    obtain ⟨htidy, hcapacity⟩ := tidy_run capacity requests
    obtain ⟨e, hok⟩ : ∃ e, (run capacity requests).answer req = .ok e := by
      have hfirst := hall _ List.mem_cons_self
      cases hanswer : (run capacity requests).answer req with
      | ok e => exact ⟨e, rfl⟩
      | error error =>
        rw [hanswer] at hfirst
        cases hfirst
    have hpaths : ((run capacity requests).step req).cache.paths = _ :=
      Cache.paths_request htidy hok
    rw [hpaths, ih (fun x hx => hall x (List.mem_cons_of_mem _ hx)), hcapacity,
      rtake_use_rtake (List.nodup_dedup _), use_dedup, List.map_append]
    rfl

theorem Faithful.not_kept {h : History} (hf : h.Faithful) {path : Path} {text : String}
    {e : Cached} (hlast : h.last? path = some e) (hlacks : h.cache.Lacks path text) :
    ¬(h.cache.contains path = true ∧ text = e.context.text) := by
  rintro ⟨hcontains, htext⟩
  obtain ⟨found, hfound⟩ : ∃ found, h.cache.entries.find? (Cache.isFor path) = some found :=
    Option.isSome_iff_exists.mp (List.find?_isSome.mpr (List.any_eq_true.mp hcontains))
  have hkept := hf.kept found (List.mem_of_find?_eq_some hfound) path (List.find?_some hfound)
  obtain rfl : found = e := Option.some.inj (hkept.symm.trans hlast)
  exact hlacks found hfound htext.symm

/-- A request hands out the context of the last answered one for the same path exactly if
that is still kept and was built from the same text. -/
theorem Faithful.answer_eq_last_iff {h : History} (hf : h.Faithful) {req : Request} {e : Cached}
    (hlast : h.last? req.path = some e) :
    h.answer req = .ok e ↔
      h.cache.contains req.path = true ∧ req.text = e.context.text := by
  have hserved := Cache.served req.fs h.cache req.path req.text
  unfold answer
  generalize h.cache.request req.fs req.path req.text = result at hserved
  cases hserved with
  | hit found hfound htext =>
    have hfor : Cache.isFor req.path found = true := List.find?_some hfound
    have hmem : found ∈ h.cache.entries := List.mem_of_find?_eq_some hfound
    obtain rfl : found = e :=
      Option.some.inj ((hf.kept found hmem req.path hfor).symm.trans hlast)
    exact iff_of_true rfl ⟨List.any_eq_true.mpr ⟨found, hmem, hfor⟩, htext.symm⟩
  | built context lacks _ =>
    refine iff_of_false ?_ (hf.not_kept hlast lacks)
    intro hsame
    -- the new context has a number that the old one cannot have
    obtain ⟨x, hx, hok⟩ := exists_answer_of_last? hlast
    have hlt := hf.numbered x hx e hok
    rw [← Except.ok.inj hsame] at hlt
    exact Nat.lt_irrefl _ hlt
  | failed _ lacks _ =>
    refine iff_of_false ?_ (hf.not_kept hlast lacks)
    intro hsame
    cases hsame

/-- What a request hands out is the context of the last answered one for its path, or has
never been handed out before. -/
theorem Faithful.serial_ne {h : History} (hf : h.Faithful) {req : Request} {e : Cached}
    (hok : h.answer req = .ok e) (hlast : h.last? req.path ≠ some e) :
    ∀ x ∈ h.answers, ∀ e', x.2 = .ok e' → e'.serial ≠ e.serial := by
  intro x hx e' he'
  have hlt := hf.numbered x hx e' he'
  have hserved := Cache.served req.fs h.cache req.path req.text
  unfold answer at hok
  generalize h.cache.request req.fs req.path req.text = result at hserved hok
  cases hserved with
  | hit found hfound _ =>
    obtain rfl := Except.ok.inj hok
    exact absurd (hf.kept found (List.mem_of_find?_eq_some hfound) req.path
      (List.find?_some hfound)) hlast
  | built context _ _ =>
    obtain rfl := Except.ok.inj hok
    exact Nat.ne_of_lt hlt
  | failed _ _ _ => cases hok

theorem cache_step_error {h : History} {req : Request} {error : ExtractError}
    (herror : h.answer req = .error error) :
    (h.step req).cache = h.cache.without req.path := by
  have hserved := Cache.served req.fs h.cache req.path req.text
  unfold answer at herror
  unfold step
  generalize h.cache.request req.fs req.path req.text = result at hserved herror
  cases hserved with
  | hit _ _ _ => cases herror
  | built _ _ _ => cases herror
  | failed _ _ _ => rfl

/-! ## The main statement -/

/-- **The contexts that were used last are kept.** After any requests no path is kept twice
and there are no more contexts than the cache has room for; if all were answered, the paths
are those that were requested last, each once and in the order of their last request. One
more request hands out the very context of the last answered one for its path, exactly if
that is still kept and was built from the same text; otherwise, if it is answered, a
context that has never been handed out before. If it fails, its path is not kept, and
everything else is kept as it was. -/
theorem keeps_last_used (capacity : Nat) (requests : List Request) :
    ((run capacity requests).cache.paths.Nodup ∧
      (run capacity requests).cache.entries.length ≤ max capacity 1) ∧
    ((∀ x ∈ (run capacity requests).answers, x.2.isOk) →
      (run capacity requests).cache.paths =
        (requests.map (·.path.components)).dedup.rtake (max capacity 1)) ∧
    ∀ req : Request,
      (∀ e, (run capacity requests).last? req.path = some e →
        ((run capacity requests).answer req = .ok e ↔
          (run capacity requests).cache.contains req.path = true ∧
            req.text = e.context.text)) ∧
      (∀ e, (run capacity requests).answer req = .ok e →
        (run capacity requests).last? req.path ≠ some e →
          ∀ x ∈ (run capacity requests).answers, ∀ e', x.2 = .ok e' →
            e'.serial ≠ e.serial) ∧
      (∀ error, (run capacity requests).answer req = .error error →
        ((run capacity requests).step req).cache.contains req.path = false ∧
          ((run capacity requests).step req).cache.entries =
            (run capacity requests).cache.entries.filter fun e => !Cache.isFor req.path e) := by
  obtain ⟨htidy, hcapacity⟩ := tidy_run capacity requests
  have hf := faithful_run capacity requests
  refine ⟨⟨htidy.nodup, ?_⟩, paths_run, ?_⟩
  · rw [← hcapacity]
    exact htidy.length_entries_le
  · intro req
    refine ⟨fun e => hf.answer_eq_last_iff, fun e => hf.serial_ne, ?_⟩
    intro error herror
    rw [cache_step_error herror]
    exact ⟨Cache.contains_without _ _, rfl⟩

/-- A directory with three files without text. -/
def blankFiles : FileSystem :=
  ⟨.directory [("a.ts", .file (some "")), ("b.ts", .file (some "")),
    ("c.ts", .file (some ""))], []⟩

/-- A request for one of these files. -/
def blankRequest (name : String) : Request :=
  ⟨blankFiles, ⟨name⟩, ""⟩

theorem isOk_answer_of_build {h : History} {req : Request} {c : Context}
    (hbuild : Context.build req.fs req.path req.text = .ok c) : (h.answer req).isOk := by
  have hserved := Cache.served req.fs h.cache req.path req.text
  unfold answer
  generalize h.cache.request req.fs req.path req.text = result at hserved
  cases hserved with
  | hit _ _ _ => rfl
  | built _ _ _ => rfl
  | failed _ _ build_eq => cases hbuild.symm.trans build_eq

theorem isOk_answers_run {capacity : Nat} {requests : List Request}
    (hbuild : ∀ req ∈ requests, ∃ c, Context.build req.fs req.path req.text = .ok c) :
    ∀ x ∈ (run capacity requests).answers, x.2.isOk := by
  induction requests using List.reverseRecOn with
  | nil => exact nofun
  | append_singleton requests req ih =>
    intro x hx
    rw [run_concat] at hx
    rcases List.mem_cons.mp hx with rfl | hx
    · obtain ⟨c, hc⟩ := hbuild req (List.mem_append_right _ List.mem_cons_self)
      exact isOk_answer_of_build hc
    · exact ih (fun req hreq => hbuild req (List.mem_append_left _ hreq)) x hx

theorem exists_build_blank {name text : String} (hname : name ∈ ["a.ts", "b.ts", "c.ts"])
    (htext : text ∈ ["", " "]) : ∃ c, Context.build blankFiles ⟨name⟩ text = .ok c := by
  have hall : ∀ name ∈ ["a.ts", "b.ts", "c.ts"], ∀ text ∈ ["", " "],
      blankFiles.isFile ⟨name⟩ = true ∧ (TypeScript.Source.read ⟨name⟩ text).any (fun s =>
        (SourceFile.ofSource ⟨name⟩ s).linkedModules.isEmpty) = true := by decide +kernel
  obtain ⟨hfile, hany⟩ := hall name hname text htext
  obtain ⟨s, hs⟩ : ∃ s, TypeScript.Source.read ⟨name⟩ text = some s :=
    Option.isSome_iff_exists.mp (Option.isSome_of_any hany)
  rw [hs] at hany
  exact ⟨_, build_of_no_links hfile hs (List.isEmpty_iff.mp hany)⟩

/-- The file that was not requested again makes room for the third one. -/
theorem keeps_last_used_two_of_three :
    (run 2 (["a.ts", "b.ts", "a.ts", "c.ts"].map blankRequest)).cache.paths =
      [[.name "a.ts"], [.name "c.ts"]] := by
  have hbuild : ∀ req ∈ ["a.ts", "b.ts", "a.ts", "c.ts"].map blankRequest,
      ∃ c, Context.build req.fs req.path req.text = .ok c := by
    intro req hreq
    obtain ⟨name, hname, rfl⟩ := List.mem_map.mp hreq
    have hnames : ∀ name ∈ ["a.ts", "b.ts", "a.ts", "c.ts"],
        name ∈ ["a.ts", "b.ts", "c.ts"] := by decide
    exact exists_build_blank (hnames name hname) List.mem_cons_self
  obtain ⟨-, hpaths, -⟩ := keeps_last_used 2 (["a.ts", "b.ts", "a.ts", "c.ts"].map blankRequest)
  rw [hpaths (isOk_answers_run hbuild)]
  decide

end History

end ElementManifest
