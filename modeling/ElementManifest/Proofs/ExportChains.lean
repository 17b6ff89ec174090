import ElementManifest.Proofs.SearchTurns
import ElementManifest.Proofs.Uncut

/-!
# What a search for a name finds

Turn by turn a search goes along a chain of links. So what it finds is at the end of such a
chain:

> `leads_of_answer`: a search finds nothing that the sources do not lead to.

Where a chain leads to a declaration and nothing else competes with it, the search finds it,
in any of the ways in which names are passed on, and also among files that link in circles:

> `answer_of_provides`: a search with enough turns finds what is provided.

> `lookup_of_provides`: so a name that is brought in means what the module provides.

The default name of a module is provided by an export list alone. An interface that is
exported by default is only found by its own name (`lookup_default_interface_eq_none`).
-/

namespace ElementManifest

open ElementManifest.TypeScript

namespace Program

open Expansion Relation

/-! ## Chains -/

section

variable (fs : FileSystem) (p : Program)

/-- The questions that a question leads to. Exports that are all passed on are those of names
that a file has no other use for. -/
def Question.next (q : Question) : List Question :=
  if (q.declared? fs p).isNone && (q.links fs p).isEmpty then q.stars fs p else q.links fs p

/-- Whether a question leads to declarations. -/
def Leads (q : Question) (s : Symbol) : Prop :=
  ∃ q', ReflTransGen (fun a b => b ∈ Question.next fs p a) q q' ∧ q'.declared? fs p = some s

/-- A chain of at most `n` links to declarations. A name that is brought in, listed or passed on
by itself stands for one name only. -/
inductive Chain : Nat → Question → Symbol → Prop
  | here {n q s} : q.declared? fs p = some s → Chain n q s
  | link {n q q' s} : q' ∈ q.links fs p → (∀ other ∈ q.links fs p, other = q') →
      Chain n q' s → Chain (n + 1) q s
  | star {n q q' s} : q.declared? fs p = none → q.links fs p = [] → q' ∈ q.stars fs p →
      Chain n q' s → Chain (n + 1) q s

/-- The declarations at the end of a chain, without any that compete with them. -/
structure Provides (n : Nat) (q : Question) (s : Symbol) : Prop where
  chain : Chain fs p n q s
  sole : ∀ s', Leads fs p q s' → s' = s

end

variable {fs : FileSystem} {p : Program}

/-! ## What a search finds -/

theorem leads_of_mem_next {q q' : Question} {s : Symbol} (hnext : q' ∈ q.next fs p)
    (h : Leads fs p q' s) : Leads fs p q s := by
  obtain ⟨q'', hsteps, hs⟩ := h
  exact ⟨q'', .head hnext hsteps, hs⟩

theorem next_eq_links {q q' : Question} (h : q' ∈ q.links fs p) :
    q.next fs p = q.links fs p := by
  unfold Question.next
  refine if_neg ?_
  rw [Bool.and_eq_true, List.isEmpty_iff]
  rintro ⟨-, hnil⟩
  rw [hnil] at h
  cases h

theorem mem_next_of_mem_links {q q' : Question} (h : q' ∈ q.links fs p) : q' ∈ q.next fs p := by
  rw [next_eq_links h]
  exact h

theorem mem_next_of_mem_stars {q q' : Question} (hnone : q.declared? fs p = none)
    (hlinks : q.links fs p = []) (h : q' ∈ q.stars fs p) : q' ∈ q.next fs p := by
  unfold Question.next
  rw [hnone, hlinks]
  exact h

theorem Chain.link_of_eq {n : Nat} {q q' : Question} {s : Symbol} (hlinks : q.links fs p = [q'])
    (h : Chain fs p n q' s) : Chain fs p (n + 1) q s := by
  refine .link ?_ ?_ h
  · rw [hlinks]
    exact List.mem_singleton_self q'
  · intro other hother
    rw [hlinks] at hother
    exact List.mem_singleton.mp hother

theorem Chain.leads {n : Nat} {q : Question} {s : Symbol} (h : Chain fs p n q s) :
    Leads fs p q s := by
  induction h with
  | here hs => exact ⟨_, .refl, hs⟩
  | link hlink _ _ ih => exact leads_of_mem_next (mem_next_of_mem_links hlink) ih
  | star hnone hlinks hstar _ ih =>
    exact leads_of_mem_next (mem_next_of_mem_stars hnone hlinks hstar) ih

/-- **What a search finds is at the end of a chain of links.** -/
theorem leads_of_answer (h : Settled fs p) {n : Nat} {q : Question} {s : Symbol}
    (hs : answer fs p n q = some s) : Leads fs p q s := by
  induction n generalizing q with
  | zero =>
    cases q with
    | inside file name => cases hs
    | fromModule m name =>
      obtain ⟨file, -, hfile⟩ := Option.bind_eq_some_iff.mp hs
      cases hfile
  | succ n ih =>
    cases turn h q with
    | declared s' hs' hturn =>
      rw [hturn] at hs
      exact ⟨q, .refl, Option.some.inj hs ▸ hs'⟩
    | follow q' hnone hlink hturn =>
      rw [hturn] at hs
      exact leads_of_mem_next (mem_next_of_mem_links hlink) (ih hs)
    | tryAll hnone hlinks hturn =>
      rw [hturn] at hs
      obtain ⟨q', hq', hs'⟩ := List.exists_of_findSome?_eq_some hs
      exact leads_of_mem_next (mem_next_of_mem_stars hnone hlinks hq') (ih hs')

theorem findSome?_eq_some_of_sole {α β : Type} {f : α → Option β} {l : List α} {a : α} {b : β}
    (ha : a ∈ l) (hb : f a = some b) (hsole : ∀ a' ∈ l, ∀ b', f a' = some b' → b' = b) :
    l.findSome? f = some b := by
  have hfound : (l.findSome? f).isSome = true :=
    List.findSome?_isSome_iff.mpr ⟨a, ha, Option.isSome_iff_exists.mpr ⟨b, hb⟩⟩
  obtain ⟨b', hb'⟩ := Option.isSome_iff_exists.mp hfound
  obtain ⟨a', ha', hfa'⟩ := List.exists_of_findSome?_eq_some hb'
  rw [hb', hsole a' ha' b' hfa']

/-- **A search finds what is provided, if it may take so many turns.** -/
theorem answer_of_provides (h : Settled fs p) {n steps : Nat} {q : Question} {s : Symbol}
    (hs : Provides fs p n q s) (hn : n < steps) : answer fs p steps q = some s := by
  obtain ⟨hchain, hsole⟩ := hs
  -- what the rest of a chain leads to, the chain leads to: so the rest is without rivals too
  induction hchain generalizing steps with
  | @here n q s hdeclared =>
    obtain ⟨steps, rfl⟩ : ∃ k, steps = k + 1 := ⟨steps - 1, by omega⟩
    cases turn h q with
    | declared s' hs' hturn =>
      rw [hturn]
      exact hs'.symm.trans hdeclared
    | follow q' hnone hlink hturn =>
      rw [hnone] at hdeclared
      cases hdeclared
    | tryAll hnone hlinks hturn =>
      rw [hnone] at hdeclared
      cases hdeclared
  | @link n q q' s hlink honly hchain ih =>
    obtain ⟨steps, rfl⟩ : ∃ k, steps = k + 1 := ⟨steps - 1, by omega⟩
    cases turn h q with
    | declared s' hs' hturn =>
      -- a declaration that hides the link is the one at the end of the chain
      rw [hturn, hsole s' ⟨q, .refl, hs'⟩]
    | follow q'' hnone hlink'' hturn =>
      obtain rfl : q'' = q' := honly q'' hlink''
      rw [hturn]
      exact ih (by omega) fun s' hs' =>
        hsole s' (leads_of_mem_next (mem_next_of_mem_links hlink) hs')
    | tryAll hnone hlinks hturn =>
      rw [hlinks] at hlink
      cases hlink
  | @star n q q' s hnone hlinks hstar hchain ih =>
    obtain ⟨steps, rfl⟩ : ∃ k, steps = k + 1 := ⟨steps - 1, by omega⟩
    have hnext : ∀ other ∈ q.stars fs p, other ∈ q.next fs p := fun other hother =>
      mem_next_of_mem_stars hnone hlinks hother
    cases turn h q with
    | declared s' hs' hturn =>
      rw [hnone] at hs'
      cases hs'
    | follow q'' hnone' hlink'' hturn =>
      rw [hlinks] at hlink''
      cases hlink''
    | tryAll hnone' hlinks' hturn =>
      rw [hturn]
      -- a module that is tried before finds the same or nothing
      refine findSome?_eq_some_of_sole hstar ?_ ?_
      · exact ih (by omega) fun s' hs' => hsole s' (leads_of_mem_next (hnext q' hstar) hs')
      · intro other hother s' hs'
        exact hsole s' (leads_of_mem_next (hnext other hother) (leads_of_answer h hs'))

/-- What a name provides that is the only one that another stands for. -/
theorem Provides.through {n : Nat} {q q' : Question} {s : Symbol} (hs : Provides fs p n q' s)
    (hnone : q.declared? fs p = none) (hlink : q' ∈ q.links fs p)
    (honly : ∀ other ∈ q.links fs p, other = q') : Provides fs p (n + 1) q s where
  chain := .link hlink honly hs.chain
  sole := by
    rintro s' ⟨q'', hsteps, hs'⟩
    rcases hsteps.cases_head with rfl | ⟨other, hother, hrest⟩
    · rw [hnone] at hs'
      cases hs'
    · rw [next_eq_links hlink] at hother
      obtain rfl := honly other hother
      exact hs.sole s' ⟨q'', hrest, hs'⟩

theorem splitDot?_of_namespace {ns : String} (h : '.' ∉ ns.toList) (rest : String) :
    splitDot? (ns ++ "." ++ rest) = some (ns, rest) := by
  have hchars : (ns ++ "." ++ rest).toList = ns.toList ++ '.' :: rest.toList := by
    rw [String.toList_append, String.toList_append]
    simp
  have hfirst : (ns.toList ++ '.' :: rest.toList).takeWhile (· ≠ '.') = ns.toList := by
    rw [List.takeWhile_append_of_pos, List.takeWhile_cons_of_neg (by simp), List.append_nil]
    intro c hc
    have hne : c ≠ '.' := fun heq => h (heq ▸ hc)
    simpa using hne
  unfold splitDot?
  simp only [hchars, hfirst, List.drop_left, String.ofList_toList]

/-! ## Names that are brought in -/

section

variable {file n : Nat} {f : SourceFile} {m : Path} {e : String} {s : Symbol}

theorem Provides.of_binds (hf : p.files[file]? = some f)
    (hs : Provides fs p n (.fromModule m e) s) {x : String} (hdot : '.' ∉ x.toList)
    (hundeclared : ∀ d ∈ f.source.typeDecls, d.name ≠ x) (hbinds : f.Binds x m e)
    (honly : ∀ m' e', f.Binds x m' e' → m' = m ∧ e' = e) :
    Provides fs p (n + 1) (.inside file x) s := by
  have hsplit : splitDot? x = none := (splitDot?_eq_none_iff x).mpr hdot
  have hfile := file?_inside fs hf x
  refine hs.through ?_ ?_ ?_
  · rw [declared?_of_file? hfile, Question.declaredIn, SourceFile.symbol?_eq_none hundeclared,
      ite_self]
  · rw [links_of_file? hfile, Question.linksIn, hsplit]
    exact List.mem_map.mpr ⟨(x, ⟨m, e⟩),
      mem_filter_name (SourceFile.mem_boundNames_iff.mpr hbinds), rfl⟩
  · intro other hother
    rw [links_of_file? hfile, Question.linksIn, hsplit] at hother
    obtain ⟨⟨x', link⟩, hentry, rfl⟩ := List.mem_map.mp hother
    obtain ⟨hmem, hname⟩ := List.mem_filter.mp hentry
    obtain rfl : x' = x := eq_of_beq hname
    obtain ⟨hm, he⟩ := honly _ _ (SourceFile.mem_boundNames_iff.mp hmem)
    rw [hm, he]

theorem Provides.of_bindsAll (hf : p.files[file]? = some f)
    (hs : Provides fs p n (.fromModule m e) s) {ns : String} (hdot : '.' ∉ ns.toList)
    (hbinds : f.BindsAll ns m) (honly : ∀ m', f.BindsAll ns m' → m' = m) :
    Provides fs p (n + 1) (.inside file (ns ++ "." ++ e)) s := by
  have hsplit := splitDot?_of_namespace hdot e
  have hfile := file?_inside fs hf (ns ++ "." ++ e)
  refine hs.through ?_ ?_ ?_
  · rw [declared?_of_file? hfile, Question.declaredIn, hsplit]
    rfl
  · rw [links_of_file? hfile, Question.linksIn, hsplit]
    exact List.mem_map.mpr ⟨(ns, m),
      mem_filter_name (SourceFile.mem_boundModules_iff.mpr hbinds), rfl⟩
  · intro other hother
    rw [links_of_file? hfile, Question.linksIn, hsplit] at hother
    obtain ⟨⟨ns', m'⟩, hentry, rfl⟩ := List.mem_map.mp hother
    obtain ⟨hmem, hname⟩ := List.mem_filter.mp hentry
    obtain rfl : ns' = ns := eq_of_beq hname
    rw [honly m' (SourceFile.mem_boundModules_iff.mp hmem)]

end

/-- **A name that is brought in means what the module provides,** if at most 16 links lead there
in all. -/
theorem lookup_of_provides {fs : FileSystem} {path : Path} {text : String} {p : Program}
    (hload : load fs path text = some p) (hroom : p.files.length < maxFiles) {file n : Nat}
    {f : SourceFile} (hf : p.files[file]? = some f) {m : Path} {e : String} {s : Symbol}
    (hs : Provides fs p n (.fromModule m e) s) (hn : n + 1 ≤ 16) :
    (∀ x, '.' ∉ x.toList → (∀ d ∈ f.source.typeDecls, d.name ≠ x) → f.Binds x m e →
      (∀ m' e', f.Binds x m' e' → m' = m ∧ e' = e) → p.lookup file x = some s) ∧
    (∀ ns, '.' ∉ ns.toList → f.BindsAll ns m → (∀ m', f.BindsAll ns m' → m' = m) →
      p.lookup file (ns ++ "." ++ e) = some s) := by
  have h := settled_of_load hload hroom
  -- the last turn is for the declaration itself
  have hturns : n + 1 < maxSteps := Nat.lt_succ_of_le hn
  constructor
  · intro x hdot hundeclared hbinds honly
    exact answer_of_provides h (hs.of_binds hf hdot hundeclared hbinds honly) hturns
  · intro ns hdot hbinds honly
    exact answer_of_provides h (hs.of_bindsAll hf hdot hbinds honly) hturns

/-! ## A chain through four files -/

/-- Where all ways from a question end, the declarations on them are all that it leads to. -/
theorem mem_of_leads {n : Nat} {q : Question} {s : Symbol}
    (hends : endsWithin (Question.next fs p) n q = true) (h : Leads fs p q s) :
    s ∈ (reachedWithin (Question.next fs p) n q).filterMap (Question.declared? fs p) := by
  obtain ⟨q', hsteps, hs⟩ := h
  exact List.mem_filterMap.mpr ⟨q', mem_reachedWithin hends hsteps, hs⟩

/-- The text of a root that brings in a name and a whole module. -/
def chainText : String :=
  "import { B as X } from './b';\nimport * as all from './b';\nexport type XConfigType = X;"

/-- The root and files that pass the name on: all names of two modules, then one of them under
another name, then a declaration in an export list. -/
def chainFiles : FileSystem :=
  ⟨.directory [("x.types.ts", .file (some chainText)),
    ("b.ts", .file (some "export * from './d';\nexport * from './c';")),
    ("c.ts", .file (some "export { A as B } from './d';")),
    ("d.ts", .file (some "interface Inner \x7b a: string \x7d\nexport { Inner as A };"))], []⟩

theorem lookup_of_provides_chain :
    ∃ p s, load chainFiles onePath chainText = some p ∧
      Provides chainFiles p 3 (.fromModule ⟨"b"⟩ "B") s ∧ s.file = 2 ∧ s.name = "Inner" ∧
      p.lookup rootFile "X" = some s ∧ p.lookup rootFile ("all" ++ "." ++ "B") = some s := by
  have hfacts : (loadWithin chainFiles 9 onePath chainText).any (fun p =>
      let q := Question.fromModule ⟨"b"⟩ "B"
      decide (p.files.length < maxFiles ∧
        (p.files[rootFile]?).map SourceFile.boundNames = some [("X", ⟨⟨"b"⟩, "B"⟩)] ∧
        (p.files[rootFile]?).map SourceFile.boundModules = some [("all", ⟨"b"⟩)] ∧
        (p.files[rootFile]?).map (·.source.typeDecls.map (·.name)) = some ["XConfigType"] ∧
        q.declared? chainFiles p = none ∧ q.links chainFiles p = [] ∧
        q.stars chainFiles p = [.fromModule ⟨"d"⟩ "B", .fromModule ⟨"c"⟩ "B"] ∧
        (Question.fromModule ⟨"c"⟩ "B").links chainFiles p = [.fromModule ⟨"d"⟩ "A"] ∧
        (Question.fromModule ⟨"d"⟩ "A").links chainFiles p = [.inside 2 "Inner"] ∧
        (Question.inside 2 "Inner").declared? chainFiles p ≠ none ∧
        endsWithin (Question.next chainFiles p) 5 q = true ∧
        ((reachedWithin (Question.next chainFiles p) 5 q).filterMap
          (Question.declared? chainFiles p)).map (fun s => (s.file, s.name)) =
          [(2, "Inner")])) = true := by
    decide +kernel
  obtain ⟨p, hwithin, hfacts⟩ := (Option.any_eq_true _ _).mp hfacts
  obtain ⟨hroom, hnames, hmodules, htypes, hnone, hlinks, hstars, hc, hd, hinner, hends,
    hfound⟩ := of_decide_eq_true hfacts
  have hload := load_of_loadWithin hwithin
  -- the declaration at the end is the only one that is met
  obtain ⟨s, hall, hs⟩ := List.map_eq_singleton_iff.mp hfound
  obtain ⟨hfile, hname⟩ := Prod.mk.inj hs
  have hsole : ∀ s', Leads chainFiles p (.fromModule ⟨"b"⟩ "B") s' → s' = s := by
    intro s' hs'
    have hmem := mem_of_leads hends hs'
    rw [hall] at hmem
    exact List.mem_singleton.mp hmem
  obtain ⟨s', hs'⟩ := Option.ne_none_iff_exists'.mp hinner
  have hlisted : Chain chainFiles p 1 (.fromModule ⟨"d"⟩ "A") s' :=
    .link_of_eq hd (.here hs')
  have hpassed : Chain chainFiles p 2 (.fromModule ⟨"c"⟩ "B") s' := .link_of_eq hc hlisted
  have hchain : Chain chainFiles p 3 (.fromModule ⟨"b"⟩ "B") s' := by
    refine .star hnone hlinks ?_ hpassed
    rw [hstars]
    decide
  obtain rfl : s' = s := hsole s' hchain.leads
  -- the root brings in each name once
  obtain ⟨f, hf, hbound⟩ := Option.map_eq_some_iff.mp hnames
  rw [hf] at hmodules htypes
  replace hmodules : f.boundModules = [("all", ⟨"b"⟩)] := Option.some.inj hmodules
  replace htypes : f.source.typeDecls.map (·.name) = ["XConfigType"] := Option.some.inj htypes
  obtain ⟨hx, hall⟩ := lookup_of_provides hload hroom hf ⟨hchain, hsole⟩ (by decide)
  refine ⟨p, s', hload, ⟨hchain, hsole⟩, hfile, hname, hx "X" (by decide) ?_ ?_ ?_,
    hall "all" (by decide) ?_ ?_⟩
  · intro d hd heq
    have hmem : d.name ∈ f.source.typeDecls.map (·.name) := List.mem_map.mpr ⟨d, hd, rfl⟩
    rw [htypes, heq] at hmem
    exact absurd hmem (by decide)
  · refine SourceFile.mem_boundNames_iff.mp ?_
    rw [hbound]
    exact List.mem_singleton_self _
  · intro m' e' hbinds
    have hmem := SourceFile.mem_boundNames_iff.mpr hbinds
    rw [hbound] at hmem
    simpa using hmem
  · refine SourceFile.mem_boundModules_iff.mp ?_
    rw [hmodules]
    exact List.mem_singleton_self _
  · intro m' hbinds
    have hmem := SourceFile.mem_boundModules_iff.mpr hbinds
    rw [hmodules] at hmem
    simpa using hmem

/-! ## A default interface -/

/-- The text of a root that brings in the default name of a module. -/
def defaultText : String :=
  "import C from './c';\nexport type XConfigType = C;"

/-- The root and a file whose default export is an interface. -/
def defaultFiles : FileSystem :=
  ⟨.directory [("x.types.ts", .file (some defaultText)),
    ("c.ts", .file (some "export default interface C \x7b a: string \x7d"))], []⟩

/-- Whether an item exports an interface by default. -/
def isDefaultInterface : Item → Bool
  | .exportDefaultInterface _ => true
  | _ => false

/-- An interface that a module exports by default is not found under its default name. -/
theorem lookup_default_interface_eq_none :
    ∃ p f g d, load defaultFiles onePath defaultText = some p ∧ p.files = [f, g] ∧
      (∀ d ∈ f.source.typeDecls, d.name ≠ "C") ∧ f.Binds "C" ⟨"c"⟩ "default" ∧
      p.moduleFile? ⟨"c"⟩ = some 1 ∧ Item.exportDefaultInterface d ∈ g.source.items ∧
      p.lookup rootFile "C" = none := by
  have hfacts : (loadWithin defaultFiles 9 onePath defaultText).any (fun p =>
      decide (p.files.length = 2 ∧
        (p.files[0]?).map SourceFile.boundNames = some [("C", ⟨⟨"c"⟩, "default"⟩)] ∧
        (p.files[0]?).map (·.source.typeDecls.map (·.name)) = some ["XConfigType"] ∧
        (p.files[1]?).map (·.source.items.any isDefaultInterface) = some true ∧
        p.moduleFile? ⟨"c"⟩ = some 1 ∧ p.lookup rootFile "C" = none)) = true := by
    decide +kernel
  obtain ⟨p, hwithin, hfacts⟩ := (Option.any_eq_true _ _).mp hfacts
  obtain ⟨hlength, hnames, htypes, hdefault, hmodule, hlookup⟩ := of_decide_eq_true hfacts
  obtain ⟨f, g, hfiles⟩ := List.length_eq_two.mp hlength
  rw [hfiles] at hnames htypes hdefault
  have hbound : f.boundNames = [("C", ⟨⟨"c"⟩, "default"⟩)] := Option.some.inj hnames
  replace htypes : f.source.typeDecls.map (·.name) = ["XConfigType"] := Option.some.inj htypes
  obtain ⟨item, hitem, hinterface⟩ := List.any_eq_true.mp (Option.some.inj hdefault)
  obtain ⟨d, rfl⟩ : ∃ d, item = .exportDefaultInterface d := by
    unfold isDefaultInterface at hinterface
    split at hinterface
    next d => exact ⟨d, rfl⟩
    next => cases hinterface
  refine ⟨p, f, g, d, load_of_loadWithin hwithin, hfiles, ?_, ?_, hmodule, hitem, hlookup⟩
  · intro d hd heq
    have hmem : d.name ∈ f.source.typeDecls.map (·.name) := List.mem_map.mpr ⟨d, hd, rfl⟩
    rw [htypes, heq] at hmem
    exact absurd hmem (by decide)
  · refine SourceFile.mem_boundNames_iff.mp ?_
    rw [hbound]
    exact List.mem_singleton_self _

end Program

end ElementManifest
