import ElementManifest.Proofs.Recency
import Mathlib.Logic.Function.Basic
import Mathlib.Logic.Relation

/-!
# One cache for several workers

Workers that share a cache hold it only to look a context up and to store one. Between
the two they build, and others go on meanwhile: they may store a context for the same path,
built from another text, or give up or remove the one that is there.

> `step_sound`: whatever a worker does next, the cache stays tidy, what is kept was built
> for a call that was made, and what is under way belongs to the worker's own call.

> `interleaving_safe`: so in every order of steps each call gets a context of its own
> path and its own text.

A call that nobody gets in the way of is a request (`exists_request`).
-/

namespace ElementManifest

/-- How far a worker is with a call. -/
inductive Progress
  | idle
  /-- The cache has not been looked into yet. -/
  | called (path : Path) (text : String)
  /-- Nothing was found, so a context has to be built. -/
  | missed (path : Path) (text : String)
  /-- The context is there and has to be stored. -/
  | built (path : Path) (text : String) (context : Context)

/-- A call that is over, and its result. -/
structure Return where
  path : Path
  text : String
  result : Except ExtractError Cached

/-- A call that handed out a context handed out one of its own path and text. -/
def Return.Own (r : Return) : Prop :=
  ∀ e, r.result = .ok e → e.context.path.same r.path = true ∧ e.context.text = r.text ∧
    ∃ fs, Context.build fs e.context.path r.text = .ok e.context

/-- A cache with the workers that share it, the calls that were made so far and those that
are over. -/
structure Shared (Worker : Type) where
  cache : Cache
  progress : Worker → Progress
  calls : List (Path × String)
  returns : List Return

namespace Shared

variable {Worker : Type} [DecidableEq Worker]

/-! ## Steps -/

/-- An empty cache, and no worker has been called. -/
def start (capacity : Nat) : Shared Worker :=
  ⟨.ofCapacity capacity, fun _ => .idle, [], []⟩

/-- A worker goes on with its call. -/
def proceed (s : Shared Worker) (w : Worker) (progress : Progress) : Shared Worker :=
  { s with progress := Function.update s.progress w progress }

/-- The call of a worker is over. -/
def finish (s : Shared Worker) (w : Worker) (r : Return) : Shared Worker :=
  { s.proceed w .idle with returns := r :: s.returns }

/-- What one worker can do next. To look a context up is one step, and to store one is
another. A build reads the files that there are at the time. -/
inductive Step (s : Shared Worker) : Shared Worker → Prop
  | call (w : Worker) (path : Path) (text : String) (idle : s.progress w = .idle) :
      Step s (proceed { s with calls := (path, text) :: s.calls } w (.called path text))
  | hit (w : Worker) (path : Path) (text : String) (e : Cached) (cache : Cache)
      (called : s.progress w = .called path text)
      (found : s.cache.lookup path text = (some e, cache)) :
      Step s (finish { s with cache } w ⟨path, text, .ok e⟩)
  | miss (w : Worker) (path : Path) (text : String) (cache : Cache)
      (called : s.progress w = .called path text)
      (not_found : s.cache.lookup path text = (none, cache)) :
      Step s (proceed { s with cache } w (.missed path text))
  | build (w : Worker) (path : Path) (text : String) (fs : FileSystem) (context : Context)
      (missed : s.progress w = .missed path text)
      (build_eq : Context.build fs path text = .ok context) :
      Step s (s.proceed w (.built path text context))
  | fail (w : Worker) (path : Path) (text : String) (fs : FileSystem) (error : ExtractError)
      (missed : s.progress w = .missed path text)
      (build_eq : Context.build fs path text = .error error) :
      Step s (s.finish w ⟨path, text, .error error⟩)
  | insert (w : Worker) (path : Path) (text : String) (context : Context)
      (built : s.progress w = .built path text context) :
      Step s (finish { s with cache := (s.cache.store context).2 } w
        ⟨path, text, .ok (s.cache.store context).1⟩)

/-- What any steps of any workers can lead to. -/
inductive Reachable (capacity : Nat) : Shared Worker → Prop
  | start : Reachable capacity (start capacity)
  | step {s s' : Shared Worker} (h : Reachable capacity s) (hstep : Step s s') :
      Reachable capacity s'

/-! ## What every step keeps -/

/-- The context of a call that was made. -/
def BuiltFor (calls : List (Path × String)) (path : Path) (text : String) (c : Context) :
    Prop :=
  (path, text) ∈ calls ∧ ∃ fs, Context.build fs path text = .ok c

/-- What a worker is at belongs to a call that was made. -/
def Belongs (calls : List (Path × String)) : Progress → Prop
  | .idle => True
  | .called path text => (path, text) ∈ calls
  | .missed path text => (path, text) ∈ calls
  | .built path text context => BuiltFor calls path text context

theorem Belongs.mono {calls : List (Path × String)} {progress : Progress}
    (h : Belongs calls progress) (call : Path × String) : Belongs (call :: calls) progress := by
  cases progress with
  | idle => trivial
  | called path text => exact List.mem_cons_of_mem call h
  | missed path text => exact List.mem_cons_of_mem call h
  | built path text context => exact ⟨List.mem_cons_of_mem call h.1, h.2⟩

/-- What holds in whatever order the workers do their steps. -/
structure Sound (capacity : Nat) (s : Shared Worker) : Prop where
  tidy : s.cache.Tidy
  capacity_eq : s.cache.capacity = max capacity 1
  kept : ∀ e ∈ s.cache.entries, BuiltFor s.calls e.context.path e.context.text e.context
  belongs : ∀ w, Belongs s.calls (s.progress w)
  own : ∀ r ∈ s.returns, Return.Own r

omit [DecidableEq Worker] in
theorem sound_start (capacity : Nat) : (start capacity : Shared Worker).Sound capacity where
  tidy := Cache.tidy_ofCapacity capacity
  capacity_eq := rfl
  kept := nofun
  belongs := fun _ => trivial
  own := nofun

section

variable {capacity : Nat} {s : Shared Worker}

theorem Sound.proceed (h : s.Sound capacity) (w : Worker) {progress : Progress}
    (hbelongs : Belongs s.calls progress) : (s.proceed w progress).Sound capacity where
  tidy := h.tidy
  capacity_eq := h.capacity_eq
  kept := h.kept
  belongs := by
    intro w'
    unfold Shared.proceed
    dsimp only
    by_cases hw : w' = w
    · rw [hw, Function.update_self]
      exact hbelongs
    · rw [Function.update_of_ne hw]
      exact h.belongs w'
  own := h.own

theorem Sound.finish (h : s.Sound capacity) (w : Worker) {r : Return} (hr : r.Own) :
    (s.finish w r).Sound capacity := by
  have hidle := h.proceed w (show Belongs s.calls .idle from trivial)
  refine ⟨hidle.tidy, hidle.capacity_eq, hidle.kept, hidle.belongs, ?_⟩
  intro r' hr'
  rcases List.mem_cons.mp hr' with rfl | hr'
  · exact hr
  · exact h.own r' hr'

omit [DecidableEq Worker] in
/-- The cache may be exchanged for another tidy one with nothing new in it. -/
theorem Sound.withCache (h : s.Sound capacity) {cache : Cache} (htidy : cache.Tidy)
    (hcapacity : cache.capacity = s.cache.capacity)
    (hkept : ∀ e ∈ cache.entries, BuiltFor s.calls e.context.path e.context.text e.context) :
    ({ s with cache } : Shared Worker).Sound capacity where
  tidy := htidy
  capacity_eq := hcapacity.trans h.capacity_eq
  kept := hkept
  belongs := h.belongs
  own := h.own

omit [DecidableEq Worker] in
theorem Sound.lookup (h : s.Sound capacity) {path : Path} {text : String}
    {found : Option Cached} {cache : Cache}
    (hlookup : s.cache.lookup path text = (found, cache)) :
    ({ s with cache } : Shared Worker).Sound capacity := by
  have hkept : ∀ e ∈ cache.entries,
      BuiltFor s.calls e.context.path e.context.text e.context := by
    intro e he
    have hmem : e ∈ (s.cache.lookup path text).2.entries := by
      rw [hlookup]
      exact he
    exact h.kept e (Cache.mem_entries_lookup hmem)
  rcases Cache.lookup_eq s.cache path text with ⟨e, hfound, -, heq⟩ | ⟨-, heq⟩
  · obtain ⟨-, rfl⟩ := Prod.mk.inj (heq.symm.trans hlookup)
    exact h.withCache (h.tidy.touch hfound) rfl hkept
  · obtain ⟨-, rfl⟩ := Prod.mk.inj (heq.symm.trans hlookup)
    exact h.withCache (h.tidy.without path) rfl hkept

omit [DecidableEq Worker] in
theorem Sound.insert (h : s.Sound capacity) {path : Path} {text : String} {context : Context}
    (hbuilt : BuiltFor s.calls path text context) :
    ({ s with cache := (s.cache.store context).2 } : Shared Worker).Sound capacity := by
  refine h.withCache (h.tidy.store context) rfl ?_
  intro e he
  rcases Cache.mem_entries_store he with hold | rfl
  · exact h.kept e hold
  · obtain ⟨hcall, fs, hbuild⟩ := hbuilt
    obtain ⟨rfl, rfl⟩ := path_text_of_build hbuild
    exact ⟨hcall, fs, hbuild⟩

omit [DecidableEq Worker] in
theorem Sound.record (h : s.Sound capacity) (call : Path × String) :
    ({ s with calls := call :: s.calls } : Shared Worker).Sound capacity where
  tidy := h.tidy
  capacity_eq := h.capacity_eq
  kept := by
    intro e he
    obtain ⟨hcall, hbuild⟩ := h.kept e he
    exact ⟨List.mem_cons_of_mem call hcall, hbuild⟩
  belongs := fun w => (h.belongs w).mono call
  own := h.own

/-- Every step keeps a shared cache sound, whoever does it. -/
theorem step_sound {s' : Shared Worker} (h : s.Sound capacity) (hstep : Step s s') :
    s'.Sound capacity := by
  cases hstep with
  | call w path text idle =>
    exact (h.record (path, text)).proceed w List.mem_cons_self
  | hit w path text e cache called found =>
    have hlook : (s.cache.lookup path text).1 = some e := by rw [found]
    obtain ⟨hmem, hsame, htext⟩ := Cache.lookup_eq_some hlook
    refine (h.lookup found).finish w ?_
    intro e' he'
    obtain rfl := Except.ok.inj he'
    -- another worker may have stored it, but for the same path and from the same text
    obtain ⟨-, fs, hbuild⟩ := h.kept e hmem
    exact ⟨hsame, htext, fs, htext ▸ hbuild⟩
  | miss w path text cache called not_found =>
    refine (h.lookup not_found).proceed w ?_
    have hbelongs := h.belongs w
    rw [called] at hbelongs
    exact hbelongs
  | build w path text fs context missed build_eq =>
    have hbelongs := h.belongs w
    rw [missed] at hbelongs
    exact h.proceed w ⟨hbelongs, fs, build_eq⟩
  | fail w path text fs error missed build_eq =>
    exact h.finish w nofun
  | insert w path text context built =>
    -- what is handed out is what the worker has built, not what may be kept by now
    have hbuilt : BuiltFor s.calls path text context := by
      have hbelongs := h.belongs w
      rw [built] at hbelongs
      exact hbelongs
    refine (h.insert hbuilt).finish w ?_
    intro e he
    obtain rfl := Except.ok.inj he
    obtain ⟨-, fs, hbuild⟩ := hbuilt
    obtain ⟨rfl, rfl⟩ := path_text_of_build hbuild
    exact ⟨(Path.same_iff _ _).mpr rfl, rfl, fs, hbuild⟩

end

theorem Reachable.sound {capacity : Nat} {s : Shared Worker} (h : Reachable capacity s) :
    s.Sound capacity := by
  induction h with
  | start => exact sound_start capacity
  | step _ hstep ih => exact step_sound ih hstep

/-! ## A call without others -/

theorem progress_proceed (s : Shared Worker) (w : Worker) (progress : Progress) :
    (s.proceed w progress).progress w = progress :=
  Function.update_self _ _ _

/-- The steps of a call that follow each other are a request. -/
theorem exists_request (s : Shared Worker) {w : Worker} (hidle : s.progress w = .idle)
    (fs : FileSystem) (path : Path) (text : String) :
    ∃ s', Relation.ReflTransGen Step s s' ∧
      s'.cache = (s.cache.request fs path text).2 ∧
      s'.returns = ⟨path, text, (s.cache.request fs path text).1⟩ :: s.returns ∧
      s'.progress = s.progress := by
  -- A worker that is back is idle again, so its progress is what it was before the call.
  have hback : Function.update s.progress w .idle = s.progress := by
    rw [← hidle, Function.update_eq_self]
  have hcall := Relation.ReflTransGen.single (Step.call w path text hidle)
  unfold Cache.request
  rcases hlookup : s.cache.lookup path text with ⟨_ | e, cache⟩
  · have hmiss := hcall.tail
      (Step.miss w path text cache (progress_proceed _ w (.called path text)) hlookup)
    cases hbuild : Context.build fs path text with
    | error error =>
      have hfail := hmiss.tail
        (Step.fail w path text fs error (progress_proceed _ w (.missed path text)) hbuild)
      refine ⟨_, hfail, rfl, rfl, ?_⟩
      unfold finish proceed
      dsimp only
      rw [Function.update_idem, Function.update_idem, hback]
    | ok context =>
      have hinsert := (hmiss.tail
        (Step.build w path text fs context (progress_proceed _ w (.missed path text)) hbuild)).tail
        (Step.insert w path text context (progress_proceed _ w (.built path text context)))
      refine ⟨_, hinsert, rfl, rfl, ?_⟩
      unfold finish proceed
      dsimp only
      rw [Function.update_idem, Function.update_idem, Function.update_idem, hback]
  · have hhit := hcall.tail
      (Step.hit w path text e cache (progress_proceed _ w (.called path text)) hlookup)
    refine ⟨_, hhit, rfl, rfl, ?_⟩
    unfold finish proceed
    dsimp only
    rw [Function.update_idem, hback]

/-! ## The main statement -/

/-- **A shared cache is safe in every order of steps.** However the steps of the workers
follow each other, no path is kept twice and there are no more contexts than the cache has
room for; what is kept was built for its path from a text that some call gave for it; and a
call that hands out a context hands out one of its own path that was built from its own
text, whatever others have stored for the path meanwhile. -/
theorem interleaving_safe {capacity : Nat} {s : Shared Worker} (h : Reachable capacity s) :
    s.cache.paths.Nodup ∧ s.cache.entries.length ≤ max capacity 1 ∧
    (∀ e ∈ s.cache.entries, (e.context.path, e.context.text) ∈ s.calls ∧
      ∃ fs, Context.build fs e.context.path e.context.text = .ok e.context) ∧
    ∀ r ∈ s.returns, ∀ e, r.result = .ok e →
      e.context.path.same r.path = true ∧ e.context.text = r.text ∧
        ∃ fs, Context.build fs e.context.path r.text = .ok e.context := by
  have hsound := h.sound
  refine ⟨hsound.tidy.nodup, ?_, hsound.kept, hsound.own⟩
  rw [← hsound.capacity_eq]
  exact hsound.tidy.length_entries_le

/-- A worker that stores its context after another one has stored one for the same path,
built from another text, still hands out its own. -/
theorem interleaving_safe_two_texts :
    ∃ (s : Shared Bool) (first second : Cached), Reachable 1 s ∧
      s.returns = [⟨⟨"a.ts"⟩, "", .ok first⟩, ⟨⟨"a.ts"⟩, " ", .ok second⟩] ∧
      first.context.text = "" ∧ second.context.text = " " := by
  obtain ⟨c, hc⟩ := @History.exists_build_blank "a.ts" "" (by decide) (by decide)
  obtain ⟨d, hd⟩ := @History.exists_build_blank "a.ts" " " (by decide) (by decide)
  have hstart : Reachable 1 (start 1 : Shared Bool) := .start
  have hcall := hstart.step (.call false ⟨"a.ts"⟩ "" rfl)
  have hmiss := hcall.step (.miss false ⟨"a.ts"⟩ "" _ rfl rfl)
  -- the other worker comes in between, and is done before the first one goes on
  have hother := (((hmiss.step (.call true ⟨"a.ts"⟩ " " rfl)).step
    (.miss true ⟨"a.ts"⟩ " " _ rfl rfl)).step (.build true ⟨"a.ts"⟩ " " _ d rfl hd)).step
    (.insert true ⟨"a.ts"⟩ " " d rfl)
  have hreach := (hother.step (.build false ⟨"a.ts"⟩ "" _ c rfl hc)).step
    (.insert false ⟨"a.ts"⟩ "" c rfl)
  obtain ⟨-, -, -, hown⟩ := interleaving_safe hreach
  refine ⟨_, _, _, hreach, rfl, ?_, ?_⟩
  · exact (hown _ List.mem_cons_self _ rfl).2.1
  · exact (hown _ (List.mem_cons_of_mem _ List.mem_cons_self) _ rfl).2.1

end Shared

end ElementManifest
