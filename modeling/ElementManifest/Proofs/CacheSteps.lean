import ElementManifest.Cache
import ElementManifest.Proofs.RootFile

/-!
# What a request does to a cache

A request ends in one of three ways:

> `served`: a kept context moves to the end, a new one is stored there, and a build that
> fails leaves everything but the context of its path.

Where their order does not matter, it is enough to know which contexts are kept
afterwards (`request_cases`).

Everything that holds of all kept contexts follows from it. A cache is `Reachable`
when requests alone have made it, in whatever file systems they were made; then
every context in it was built for its own path and text (`exists_build_of_request`).
-/

namespace ElementManifest

namespace Cache

/-! ## The two steps of a request -/

theorem mem_entries_without {c : Cache} {path : Path} {e : Cached}
    (h : e ∈ (c.without path).entries) : e ∈ c.entries :=
  (List.mem_filter.mp h).1

theorem not_isFor_of_mem_without {c : Cache} {path : Path} {e : Cached}
    (h : e ∈ (c.without path).entries) : ¬isFor path e = true := by
  intro hfor
  have hnot := (List.mem_filter.mp h).2
  rw [hfor] at hnot
  cases hnot

/-- The cache with the kept context of a path moved to the end. -/
def touch (c : Cache) (path : Path) (e : Cached) : Cache :=
  { c with entries := (c.without path).entries ++ [e] }

theorem mem_entries_touch {c : Cache} {path : Path} {e e' : Cached} (he : e ∈ c.entries)
    (h : e' ∈ (c.touch path e).entries) : e' ∈ c.entries := by
  rcases List.mem_append.mp h with hrest | hlast
  · exact mem_entries_without hrest
  · rw [List.mem_singleton.mp hlast]
    exact he

theorem find?_touch (c : Cache) {path : Path} {e : Cached} (hfor : isFor path e = true) :
    (c.touch path e).entries.find? (isFor path) = some e := by
  have hnone : (c.without path).entries.find? (isFor path) = none :=
    List.find?_eq_none.mpr fun e' he' => not_isFor_of_mem_without he'
  unfold touch
  rw [List.find?_append, hnone, List.find?_cons, hfor]
  rfl

/-- No context is kept for a path that was built from this text. -/
def Lacks (c : Cache) (path : Path) (text : String) : Prop :=
  ∀ e, c.entries.find? (isFor path) = some e → e.context.text ≠ text

/-- A look into a cache finds the context of the path and moves it to the end, or removes
what is kept for the path. -/
theorem lookup_eq (c : Cache) (path : Path) (text : String) :
    (∃ e, c.entries.find? (isFor path) = some e ∧ e.context.text = text ∧
      c.lookup path text = (some e, c.touch path e)) ∨
    (c.Lacks path text ∧ c.lookup path text = (none, c.without path)) := by
  unfold lookup
  cases hfound : c.entries.find? (isFor path) with
  | none =>
    have hlacks : c.Lacks path text := by
      intro e he
      rw [hfound] at he
      cases he
    -- nothing is kept for the path, so removing it changes nothing
    have hself : c.without path = c := by
      have hall : c.entries.filter (fun e => !isFor path e) = c.entries := by
        refine List.filter_eq_self.mpr ?_
        intro e he
        rw [Bool.eq_false_iff.mpr (List.find?_eq_none.mp hfound e he)]
        rfl
      unfold without
      rw [hall]
    exact Or.inr ⟨hlacks, by rw [hself]⟩
  | some e =>
    by_cases htext : e.context.text = text
    · refine Or.inl ⟨e, rfl, htext, ?_⟩
      dsimp only
      rw [if_pos htext]
      rfl
    · refine Or.inr ⟨?_, ?_⟩
      · intro e' he'
        rw [hfound] at he'
        obtain rfl := Option.some.inj he'
        exact htext
      · dsimp only
        rw [if_neg htext]

/-- Looking up a context keeps only what was kept before. -/
theorem mem_entries_lookup {c : Cache} {path : Path} {text : String} {e : Cached}
    (h : e ∈ (c.lookup path text).2.entries) : e ∈ c.entries := by
  rcases lookup_eq c path text with ⟨found, hfound, -, heq⟩ | ⟨-, heq⟩
  · rw [heq] at h
    exact mem_entries_touch (List.mem_of_find?_eq_some hfound) h
  · rw [heq] at h
    exact mem_entries_without h

/-- A context that is found belongs to the path and was built from the text. -/
theorem lookup_eq_some {c : Cache} {path : Path} {text : String} {e : Cached}
    (h : (c.lookup path text).1 = some e) :
    e ∈ c.entries ∧ e.context.path.same path = true ∧ e.context.text = text := by
  rcases lookup_eq c path text with ⟨found, hfound, htext, heq⟩ | ⟨-, heq⟩
  · rw [heq] at h
    obtain rfl : found = e := Option.some.inj h
    have hsame : isFor path found = true := List.find?_some hfound
    exact ⟨List.mem_of_find?_eq_some hfound, hsame, htext⟩
  · rw [heq] at h
    cases h

/-- Storing a context keeps what was kept before, or less, and the new one. -/
theorem mem_entries_store {c : Cache} {context : Context} {e : Cached}
    (h : e ∈ (c.store context).2.entries) : e ∈ c.entries ∨ e = ⟨c.stored, context⟩ := by
  unfold store at h
  rcases List.mem_append.mp (List.mem_of_mem_drop h) with hold | hnew
  · exact Or.inl (mem_entries_without hold)
  · exact Or.inr (List.mem_singleton.mp hnew)

/-! ## Requests -/

/-- What a request answers, and the cache that it leaves. -/
inductive Served (fs : FileSystem) (c : Cache) (path : Path) (text : String) :
    Except ExtractError Cached × Cache → Prop
  /-- The kept context is handed out. -/
  | hit (e : Cached) (found : c.entries.find? (isFor path) = some e)
      (text_eq : e.context.text = text) : Served fs c path text (.ok e, c.touch path e)
  /-- A new context is built and stored. -/
  | built (context : Context) (lacks : c.Lacks path text)
      (build_eq : Context.build fs path text = .ok context) :
      Served fs c path text (.ok ⟨c.stored, context⟩, ((c.without path).store context).2)
  /-- The context cannot be built. -/
  | failed (error : ExtractError) (lacks : c.Lacks path text)
      (build_eq : Context.build fs path text = .error error) :
      Served fs c path text (.error error, c.without path)

theorem served (fs : FileSystem) (c : Cache) (path : Path) (text : String) :
    Served fs c path text (c.request fs path text) := by
  unfold request
  rcases lookup_eq c path text with ⟨e, hfound, htext, hlookup⟩ | ⟨hlacks, hlookup⟩
  · rw [hlookup]
    exact .hit e hfound htext
  · rw [hlookup]
    dsimp only
    cases hbuild : Context.build fs path text with
    | error error => exact .failed error hlacks hbuild
    | ok context => exact .built context hlacks hbuild

/-- What this says about the kept contexts, whatever their order. -/
inductive Requested (fs : FileSystem) (c : Cache) (path : Path) (text : String) :
    Except ExtractError Cached × Cache → Prop
  /-- A kept context is handed out. -/
  | hit (e : Cached) (c' : Cache) (kept : e ∈ c.entries)
      (path_same : e.context.path.same path = true) (text_eq : e.context.text = text)
      (stored_eq : c'.stored = c.stored) (subset : ∀ e' ∈ c'.entries, e' ∈ c.entries) :
      Requested fs c path text (.ok e, c')
  /-- A new context is built, numbered and stored. -/
  | built (context : Context) (c' : Cache)
      (build_eq : Context.build fs path text = .ok context) (stored_eq : c'.stored = c.stored + 1)
      (subset : ∀ e' ∈ c'.entries, e' ∈ c.entries ∨ e' = ⟨c.stored, context⟩) :
      Requested fs c path text (.ok ⟨c.stored, context⟩, c')
  /-- The context cannot be built. -/
  | failed (error : ExtractError) (c' : Cache)
      (build_eq : Context.build fs path text = .error error) (stored_eq : c'.stored = c.stored)
      (subset : ∀ e' ∈ c'.entries, e' ∈ c.entries) :
      Requested fs c path text (.error error, c')

theorem request_cases (fs : FileSystem) (c : Cache) (path : Path) (text : String) :
    Requested fs c path text (c.request fs path text) := by
  have hserved := served fs c path text
  generalize c.request fs path text = result at hserved
  cases hserved with
  | hit e found text_eq =>
    have hmem : e ∈ c.entries := List.mem_of_find?_eq_some found
    have hfor : isFor path e = true := List.find?_some found
    exact .hit e _ hmem hfor text_eq rfl fun e' => mem_entries_touch hmem
  | built context _ build_eq =>
    refine .built context _ build_eq rfl ?_
    intro e he
    rcases mem_entries_store he with hold | hnew
    · exact Or.inl (mem_entries_without hold)
    · exact Or.inr hnew
  | failed error _ build_eq =>
    exact .failed error _ build_eq rfl fun e => mem_entries_without

/-- What holds of the contexts that are kept, and of one that may be built, holds of those that
are kept after a request. -/
theorem forall_entries_request {P : Context → Prop} {fs : FileSystem} {c : Cache} {path : Path}
    {text : String} (hkept : ∀ e ∈ c.entries, P e.context)
    (hbuilt : ∀ context, Context.build fs path text = .ok context → P context) :
    ∀ e ∈ (c.request fs path text).2.entries, P e.context := by
  intro e he
  have hcases := request_cases fs c path text
  generalize c.request fs path text = result at hcases he
  cases hcases with
  | hit _ _ _ _ _ _ subset => exact hkept e (subset e he)
  | built context _ build_eq _ subset =>
    rcases subset e he with hold | rfl
    · exact hkept e hold
    · exact hbuilt context build_eq
  | failed _ _ _ _ subset => exact hkept e (subset e he)

/-! ## Reachable caches -/

/-- A cache that requests have made, starting from an empty one. The files may have
been different ones at each request. -/
inductive Reachable : Cache → Prop
  | empty (capacity : Nat) : Reachable (.ofCapacity capacity)
  | request {c : Cache} (fs : FileSystem) (path : Path) (text : String) (h : Reachable c) :
      Reachable (c.request fs path text).2

/-- Every kept context was built for its path from its text. -/
def AllBuilt (c : Cache) : Prop :=
  ∀ e ∈ c.entries, ∃ fs, Context.build fs e.context.path e.context.text = .ok e.context

theorem allBuilt_request {fs : FileSystem} {c : Cache} {path : Path} {text : String}
    (h : c.AllBuilt) : (c.request fs path text).2.AllBuilt := by
  refine forall_entries_request
    (P := fun c => ∃ fs, Context.build fs c.path c.text = .ok c) h ?_
  intro context hbuild
  obtain ⟨rfl, rfl⟩ := path_text_of_build hbuild
  exact ⟨fs, hbuild⟩

theorem Reachable.allBuilt {c : Cache} (h : c.Reachable) : c.AllBuilt := by
  induction h with
  | empty capacity =>
    intro e he
    exact absurd he (by simp [ofCapacity])
  | request fs path text _ ih => exact allBuilt_request ih

/-- What a request to a reachable cache hands out was built for the same path, perhaps
in another spelling and among other files, and from the given text. -/
theorem exists_build_of_request {fs : FileSystem} {c : Cache} {path : Path} {text : String}
    {e : Cached} (h : c.Reachable) (hok : (c.request fs path text).1 = .ok e) :
    e.context.path.same path = true ∧ e.context.text = text ∧
      ∃ fs', Context.build fs' e.context.path text = .ok e.context := by
  have hcases := request_cases fs c path text
  generalize c.request fs path text = result at hcases hok
  cases hcases with
  | hit _ _ kept path_same text_eq _ _ =>
    cases hok
    obtain ⟨fs', hbuild⟩ := h.allBuilt e kept
    exact ⟨path_same, text_eq, fs', text_eq ▸ hbuild⟩
  | built context _ build_eq _ _ =>
    cases hok
    obtain ⟨hpath, htext⟩ := path_text_of_build build_eq
    refine ⟨?_, htext, fs, ?_⟩
    · dsimp only
      rw [hpath]
      exact decide_eq_true rfl
    · dsimp only
      rw [hpath]
      exact build_eq
  | failed => cases hok

end Cache

end ElementManifest
