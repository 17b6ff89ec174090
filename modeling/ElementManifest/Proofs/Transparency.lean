import ElementManifest.Proofs.CacheSteps
import ElementManifest.Proofs.Probes
import ElementManifest.Proofs.Respelling

/-!
# What the cache hands out is what would be built

Between two requests files are written and deleted. A context that is handed out may
have been built long before, but it was built for the same text, and nothing that the
build looked at has changed unless the file was written or deleted since:

> `exists_built_of_mem`: every context that is kept was built by a request of the run.

> `read_run`: what is not touched by a run reads as before.

So the context is the one that would be built now, `answer_eq_fresh_build`. A path is
kept under its meaning and not under its spelling, though, and a slash behind a file
name does not change the meaning: `answer_trailing_slash_ne_fresh_build`.
-/

namespace ElementManifest

open ElementManifest.TypeScript

/-! ## Runs -/

/-- What can happen to the files and to the cache. -/
inductive Event
  | write (path : Path) (text : String)
  | delete (path : Path)
  | request (path : Path) (text : String)

/-- The path whose file an event changes. -/
def Event.changed? : Event → Option Path
  | write path _ => some path
  | delete path => some path
  | request _ _ => none

/-- The files and the cache. -/
structure Session where
  fs : FileSystem
  cache : Cache

namespace Session

/-- Files with an empty cache. -/
def start (fs : FileSystem) (capacity : Nat) : Session :=
  ⟨fs, .ofCapacity capacity⟩

/-- What an event leaves behind. A change that is not possible changes nothing. -/
def step (s : Session) : Event → Session
  | .write path text => { s with fs := (s.fs.write path text).getD s.fs }
  | .delete path => { s with fs := (s.fs.delete path).getD s.fs }
  | .request path text => { s with cache := (s.cache.request s.fs path text).2 }

/-- What events leave behind, one after the other. -/
def run (s : Session) (events : List Event) : Session :=
  events.foldl step s

theorem run_append (s : Session) (events more : List Event) :
    s.run (events ++ more) = (s.run events).run more :=
  List.foldl_append

/-- The answer to a request. -/
def answer (s : Session) (path : Path) (text : String) : Except ExtractError Cached :=
  (s.cache.request s.fs path text).1

/-! ## What a run leaves as it is -/

/-- An event changes the place of one path, if anything. -/
theorem step_fs_cases (s : Session) (ev : Event) :
    (s.step ev).fs = s.fs ∨ ∃ path place, ev.changed? = some path ∧
      s.fs.place? path = some place ∧ FileSystem.ChangedAt place s.fs (s.step ev).fs := by
  cases ev with
  | request path text => exact Or.inl rfl
  | write path text =>
    show (s.fs.write path text).getD s.fs = s.fs ∨ ∃ p place, _ = some p ∧ _ ∧
      FileSystem.ChangedAt place s.fs ((s.fs.write path text).getD s.fs)
    cases hwrite : s.fs.write path text with
    | none => exact Or.inl rfl
    | some fs =>
      obtain ⟨place, hplace, hchanged⟩ := FileSystem.changedAt_write hwrite
      exact Or.inr ⟨path, place, rfl, hplace, hchanged⟩
  | delete path =>
    show (s.fs.delete path).getD s.fs = s.fs ∨ ∃ p place, _ = some p ∧ _ ∧
      FileSystem.ChangedAt place s.fs ((s.fs.delete path).getD s.fs)
    cases hdelete : s.fs.delete path with
    | none => exact Or.inl rfl
    | some fs =>
      obtain ⟨place, hplace, hchanged⟩ := FileSystem.changedAt_delete hdelete
      exact Or.inr ⟨path, place, rfl, hplace, hchanged⟩

theorem place?_step (s : Session) (ev : Event) : (s.step ev).fs.place? = s.fs.place? := by
  rcases step_fs_cases s ev with heq | ⟨path, place, -, -, hchanged⟩
  · rw [heq]
  · exact hchanged.place?_eq

/-- Every path leads to the same place all the time. -/
theorem place?_run (s : Session) (events : List Event) :
    (s.run events).fs.place? = s.fs.place? := by
  induction events generalizing s with
  | nil => rfl
  | cons ev events ih => exact (ih (s.step ev)).trans (place?_step s ev)

/-- No event writes or deletes a file at the place of a path. -/
def Untouched (fs : FileSystem) (events : List Event) (q : Path) : Prop :=
  ∀ ev ∈ events, ∀ path place, ev.changed? = some path → fs.place? path = some place →
    fs.place? q ≠ some place

/-- What is not touched by a run reads as before. -/
theorem read_run {s : Session} {events : List Event} {q : Path}
    (h : Untouched s.fs events q) : (s.run events).fs.read q = s.fs.read q := by
  induction events generalizing s with
  | nil => rfl
  | cons ev events ih =>
    have hrest : Untouched (s.step ev).fs events q := by
      intro ev' hev' path place hpath hplace
      rw [place?_step] at hplace ⊢
      exact h ev' (List.mem_cons_of_mem ev hev') path place hpath hplace
    have hstep : (s.step ev).fs.read q = s.fs.read q := by
      rcases step_fs_cases s ev with heq | ⟨path, place, hpath, hplace, hchanged⟩
      · rw [heq]
      · exact hchanged.read_eq (h ev List.mem_cons_self path place hpath hplace)
    exact (ih hrest).trans hstep

/-! ## Where contexts come from -/

/-- A request builds this context, and gives it its number. -/
structure Builds (s : Session) (path : Path) (e : Cached) : Prop where
  answer_eq : s.answer path e.context.text = .ok e
  serial_eq : e.serial = s.cache.stored
  build_eq : Context.build s.fs path e.context.text = .ok e.context

/-- Every context that is kept was built by a request of the run. -/
theorem exists_built_of_mem (fs : FileSystem) (capacity : Nat) (events : List Event) :
    ∀ e ∈ ((start fs capacity).run events).cache.entries, ∃ before path after,
      events = before ++ .request path e.context.text :: after ∧
        ((start fs capacity).run before).Builds path e := by
  induction events using List.reverseRecOn with
  | nil =>
    intro e he
    cases he
  | append_singleton events ev ih =>
    intro e he
    have hold : e ∈ ((start fs capacity).run events).cache.entries →
        ∃ before path after, events ++ [ev] = before ++ .request path e.context.text :: after ∧
          ((start fs capacity).run before).Builds path e := by
      intro hmem
      obtain ⟨before, path, after, heq, hbuilds⟩ := ih e hmem
      exact ⟨before, path, after ++ [ev], by rw [heq, List.append_assoc]; rfl, hbuilds⟩
    rw [run_append] at he
    -- only a request that builds adds a context
    cases ev with
    | write path text => exact hold he
    | delete path => exact hold he
    | request path text =>
      change e ∈ (Cache.request ((start fs capacity).run events).fs
        ((start fs capacity).run events).cache path text).2.entries at he
      have hcases := Cache.request_cases ((start fs capacity).run events).fs
        ((start fs capacity).run events).cache path text
      generalize hresult : Cache.request ((start fs capacity).run events).fs
        ((start fs capacity).run events).cache path text = result at hcases he
      cases hcases with
      | hit _ _ _ _ _ _ subset => exact hold (subset e he)
      | failed _ _ _ _ subset => exact hold (subset e he)
      | built context _ build_eq _ subset =>
        rcases subset e he with hmem | rfl
        · exact hold hmem
        · obtain ⟨-, rfl⟩ := path_text_of_build build_eq
          exact ⟨events, path, [], rfl, congrArg Prod.fst hresult, rfl, build_eq⟩

/-- Every context that is handed out was built by a request of the run, or is built now. -/
theorem exists_built_of_answer {fs : FileSystem} {capacity : Nat} {events : List Event}
    {path : Path} {text : String} {e : Cached}
    (h : ((start fs capacity).run events).answer path text = .ok e) :
    e.context.text = text ∧ ∃ before built after,
      events ++ [.request path text] = before ++ .request built text :: after ∧
        built.same path = true ∧ ((start fs capacity).run before).Builds built e := by
  have hcases := Cache.request_cases ((start fs capacity).run events).fs
    ((start fs capacity).run events).cache path text
  unfold answer at h
  generalize hresult : Cache.request ((start fs capacity).run events).fs
    ((start fs capacity).run events).cache path text = result at hcases h
  cases hcases with
  | failed => cases h
  | hit _ _ kept path_same text_eq _ _ =>
    cases h
    obtain ⟨before, built, after, heq, hbuilds⟩ := exists_built_of_mem fs capacity events e kept
    obtain ⟨hpath, -⟩ := path_text_of_build hbuilds.build_eq
    rw [text_eq] at heq
    refine ⟨text_eq, before, built, after ++ [.request path text], ?_, hpath ▸ path_same, hbuilds⟩
    rw [heq, List.append_assoc]
    rfl
  | built context _ build_eq _ _ =>
    cases h
    obtain ⟨-, htext⟩ := path_text_of_build build_eq
    subst htext
    exact ⟨rfl, events, path, [], rfl, decide_eq_true rfl, congrArg Prod.fst hresult, rfl, build_eq⟩

/-! ## The main statement -/

/-- **What the cache hands out is what would be built.** A request answers with a context
of the given text, which a request of the run has built for the same path, or which is
built now. If nothing that this build looked at has been written or deleted since, the
same context would be built now, where the path is spelled as it was then. In another
spelling that leads to a file the context would only have the new spelling, and the same
properties. -/
theorem answer_eq_fresh_build {fs : FileSystem} {capacity : Nat} {events : List Event}
    {path : Path} {text : String} {e : Cached}
    (h : ((start fs capacity).run events).answer path text = .ok e) :
    e.context.text = text ∧ ∃ before built after,
      events ++ [.request path text] = before ++ .request built text :: after ∧
        built.same path = true ∧ ((start fs capacity).run before).Builds built e ∧
        ((∀ q ∈ e.context.probes ((start fs capacity).run before).fs, Untouched fs after q) →
          (built = path →
            Context.build ((start fs capacity).run events).fs path text = .ok e.context) ∧
          (((start fs capacity).run events).fs.isFile path = true →
            ∃ fresh, Context.build ((start fs capacity).run events).fs path text = .ok fresh ∧
              fresh = e.context.respell path ∧ fresh.extract = e.context.extract ∧
              fresh.firstConfigType = e.context.firstConfigType)) := by
  obtain ⟨htext, before, built, after, hevents, hsame, hbuilds⟩ := exists_built_of_answer h
  refine ⟨htext, before, built, after, hevents, hsame, hbuilds, ?_⟩
  intro huntouched
  -- the request at the end leaves the files alone, so they are what `after` has made of them
  have hfs : ((start fs capacity).run events).fs =
      (((start fs capacity).run before).run (.request built text :: after)).fs := by
    rw [← run_append, ← hevents, run_append]
    rfl
  have hread : ∀ q ∈ e.context.probes ((start fs capacity).run before).fs,
      ((start fs capacity).run events).fs.read q = ((start fs capacity).run before).fs.read q := by
    intro q hq
    rw [hfs]
    refine read_run ?_
    intro ev hev p place hp hplace
    rw [place?_run] at hplace ⊢
    rcases List.mem_cons.mp hev with rfl | hafter
    · cases hp
    · exact huntouched q hq ev hafter p place hp hplace
  have hbuild : Context.build ((start fs capacity).run events).fs built text = .ok e.context :=
    build_of_probed (htext ▸ hbuilds.build_eq) hread
  constructor
  · intro hpath
    rw [← hpath]
    exact hbuild
  · intro hfile
    exact ⟨_, build_respell hbuild hsame hfile, rfl, Context.extract_respell _ _,
      Context.firstConfigType_respell _ _⟩

/-! ## Two requests -/

/-- A types file with one property. -/
def plainText : String :=
  "export type XConfigType = \x7b a: string \x7d;"

theorem build_plain : ∃ c, Context.build (oneFile plainText) onePath plainText = .ok c ∧
    c.program.modules = [] := by
  obtain ⟨c, hc⟩ : ∃ c, oneContext? plainText = some c :=
    Option.isSome_iff_exists.mp (by decide +kernel)
  obtain ⟨s, -, -, rfl⟩ := read_of_oneContext? hc
  exact ⟨_, build_of_oneContext? hc, rfl⟩

/-- A first request keeps the context that it builds. -/
theorem entries_run_request {fs : FileSystem} {path : Path} {text : String} {c : Context}
    (h : Context.build fs path text = .ok c) (capacity : Nat) :
    ((start fs capacity).run [.request path text]).cache.entries = [⟨0, c⟩] := by
  have hroom : 1 - max capacity 1 = 0 := by omega
  show (Cache.request fs (.ofCapacity capacity) path text).2.entries = _
  unfold Cache.request Cache.lookup Cache.ofCapacity
  simp only [List.find?_nil, h]
  unfold Cache.store Cache.without
  simp [hroom]

theorem answer_of_entries {s : Session} {e : Cached} {path : Path} {text : String}
    (h : s.cache.entries = [e]) (hpath : e.context.path.same path = true)
    (htext : e.context.text = text) : s.answer path text = .ok e := by
  have hfor : Cache.isFor path e = true := hpath
  unfold answer Cache.request Cache.lookup
  rw [h]
  simp [hfor, htext]

/-- A file that is written next to the types file changes nothing. -/
theorem answer_eq_fresh_build_after_write :
    ∃ c, ((start (oneFile plainText) Cache.defaultCapacity).run
        [.request onePath plainText, .write ⟨"y.ts"⟩ ""]).answer onePath plainText = .ok ⟨0, c⟩ ∧
      Context.build ((start (oneFile plainText) Cache.defaultCapacity).run
        [.request onePath plainText, .write ⟨"y.ts"⟩ ""]).fs onePath plainText = .ok c := by
  obtain ⟨c, hbuild, hmodules⟩ := build_plain
  obtain ⟨hpath, htext⟩ := path_text_of_build hbuild
  have hanswer : ((start (oneFile plainText) Cache.defaultCapacity).run
      [.request onePath plainText, .write ⟨"y.ts"⟩ ""]).answer onePath plainText = .ok ⟨0, c⟩ :=
    answer_of_entries (entries_run_request hbuild _) (hpath ▸ decide_eq_true rfl) htext
  obtain ⟨-, before, built, after, hevents, -, -, hfresh⟩ := answer_eq_fresh_build hanswer
  have hmem : ∀ ev ∈ .request built plainText :: after,
      ev ∈ [.request onePath plainText, .write ⟨"y.ts"⟩ "", .request onePath plainText] := by
    intro ev hev
    have happend := List.mem_append_right before hev
    rw [← hevents] at happend
    exact happend
  -- What is written is no file that the analysis has asked for, and the text is requested once.
  refine ⟨c, hanswer, (hfresh ?_).1 ?_⟩
  · intro q hq ev hev path place hchanged hplace
    have hq : q = onePath := by
      unfold Context.probes at hq
      rw [hmodules, hpath] at hq
      exact List.mem_singleton.mp hq
    have hwrite : path = ⟨"y.ts"⟩ := by
      have := hmem ev (List.mem_cons_of_mem _ hev)
      simp only [List.mem_cons, List.not_mem_nil, or_false] at this
      rcases this with rfl | rfl | rfl
      · cases hchanged
      · exact (Option.some.inj hchanged).symm
      · cases hchanged
    rw [hwrite, show (oneFile plainText).place? ⟨"y.ts"⟩ = some ["y.ts"] by decide] at hplace
    rw [hq, ← hplace]
    decide
  · have := hmem _ List.mem_cons_self
    simpa using this

/-- A slash behind the name of the types file does not make another path of it, but no file
is found there. -/
theorem answer_trailing_slash_ne_fresh_build :
    ∃ e, ((start (oneFile plainText) Cache.defaultCapacity).run
        [.request onePath plainText]).answer ⟨"x.types.ts/"⟩ plainText = .ok e ∧
      Context.build ((start (oneFile plainText) Cache.defaultCapacity).run
        [.request onePath plainText]).fs ⟨"x.types.ts/"⟩ plainText =
          .error (.notFound ⟨"x.types.ts/"⟩) := by
  obtain ⟨c, hbuild, -⟩ := build_plain
  obtain ⟨hpath, htext⟩ := path_text_of_build hbuild
  have hsame : onePath.same ⟨"x.types.ts/"⟩ = true := by decide
  refine ⟨_, answer_of_entries (entries_run_request hbuild _) (hpath ▸ hsame) htext, ?_⟩
  have hslash : (oneFile plainText).isFile ⟨"x.types.ts/"⟩ = false := by decide
  show Context.build (oneFile plainText) _ _ = _
  unfold Context.build
  rw [hslash]
  rfl

end Session

end ElementManifest
