import ElementManifest.Proofs.SignaturePlaces
import ElementManifest.Proofs.SteadyStatements

/-!
# Doc blocks

Comments are found by where they stand: the doc of a property is told by the last doc comment
between the end of the member before it, or the opening of its body, and the property itself. Such
gaps lie between members. So where the stretches of a source nest, and the members of a body are
in their order, no two gaps have a stretch in common, however the bodies are nested:

> `Source.tellsDoc_docOf`: a doc is told by the last comment in its gap that says something.

> `Laid.gap_clear`: what stands inside of a body is clear of the gaps between its members.

> `doc_blocks_apart`: the doc of a property that is found is told by the last comment in its gap,
> and no comment tells the docs of two properties.
-/

namespace ElementManifest

open ElementManifest.TypeScript ElementManifest.Expansion

namespace TypeScript

/-! ## The comment that tells a doc -/

/-- A comment stands between the place where the doc of a signature may start and the signature. -/
structure InGap (c : Comment) (sig : Signature) : Prop where
  behind : sig.2 ≤ c.span.lo
  before : c.span.hi ≤ sig.1.span.lo

namespace Source

variable {s : Source}

/-- A comment documents a signature: of the comments in its gap that say something, it is the last
one. -/
structure Documents (s : Source) (c : Comment) (sig : Signature) (doc : String) : Prop where
  mem : c ∈ s.comments
  gap : InGap c sig
  tells : DocComment.ofComment c = some doc
  last : ∀ k ∈ s.comments, InGap k sig → DocComment.ofComment k ≠ none →
    k = c ∨ k.span.hi ≤ c.span.lo

/-- What the comments of a source tell about a signature. -/
def TellsDoc (s : Source) (sig : Signature) : Option String → Prop
  | some doc => ∃ c, s.Documents c sig doc
  | none => ∀ k ∈ s.comments, InGap k sig → DocComment.ofComment k = none

/-- A property of a source is signed there, with the doc that the comments tell. -/
def Documented (s : Source) (shape : Shape) : Prop :=
  ∃ pos k sig, s.signatureAt? pos k = some sig ∧ sig.1.name? = some shape.name ∧
    s.TellsDoc sig shape.doc

/-- The doc of a signature is searched for from the last comment on. -/
theorem docOf_eq_findSome? (s : Source) (sig : Signature) :
    s.docOf sig.1 sig.2 = (s.comments.reverse.filter fun c =>
      sig.2 ≤ c.span.lo ∧ c.span.hi ≤ sig.1.span.lo).findSome? DocComment.ofComment := by
  unfold docOf DocComment.between
  rw [List.getLast?_eq_head?_reverse, ← List.filterMap_reverse, ← List.filter_reverse,
    List.head?_filterMap]

/-- The doc of a signature is what the comments tell. -/
theorem tellsDoc_docOf {stop : Nat} (h : Passed s.comments.reverse stop) (sig : Signature) :
    s.TellsDoc sig (s.docOf sig.1 sig.2) := by
  rw [docOf_eq_findSome?]
  have hmem (k : Comment) : k ∈ s.comments ∧ InGap k sig ↔
      k ∈ s.comments.reverse.filter fun c => sig.2 ≤ c.span.lo ∧ c.span.hi ≤ sig.1.span.lo := by
    rw [List.mem_filter, List.mem_reverse, decide_eq_true_iff]
    exact ⟨fun hk => ⟨hk.1, hk.2.behind, hk.2.before⟩, fun hk => ⟨hk.1, hk.2.1, hk.2.2⟩⟩
  have hordered := h.ordered.filter
    fun c => decide (sig.2 ≤ c.span.lo ∧ c.span.hi ≤ sig.1.span.lo)
  generalize s.comments.reverse.filter _ = found at hmem hordered
  cases hdoc : found.findSome? DocComment.ofComment with
  | none =>
    intro k hk hgap
    exact List.findSome?_eq_none_iff.mp hdoc k ((hmem k).mp ⟨hk, hgap⟩)
  | some doc =>
    obtain ⟨newer, c, older, rfl, htells, hnewer⟩ := List.findSome?_eq_some_iff.mp hdoc
    obtain ⟨hc, hgap⟩ := (hmem c).mpr (List.mem_append_right _ List.mem_cons_self)
    refine ⟨c, hc, hgap, htells, ?_⟩
    intro k hk hkgap hne
    rcases List.mem_append.mp ((hmem k).mp ⟨hk, hkgap⟩) with hk | hk
    · exact absurd (hnewer k hk) hne
    · rcases List.mem_cons.mp hk with rfl | hk
      · exact .inl rfl
      · have hbelow := (List.pairwise_append.mp hordered).2.1
        exact .inr ((List.pairwise_cons.mp hbelow).1 k hk)

theorem Signs.documented {stop : Nat} (hpassed : Passed s.comments.reverse stop) {shape : Shape}
    (h : s.Signs shape.name shape.doc) : s.Documented shape := by
  obtain ⟨pos, k, sig, hsig, hname, hdoc⟩ := h
  refine ⟨pos, k, sig, hsig, hname, ?_⟩
  rw [← hdoc]
  exact tellsDoc_docOf hpassed sig

end Source

/-! ## Stretches -/

/-- Where a part stands, for parts that keep it. -/
def Node.span? : Node → Option Span
  | .type t => some t.span
  | .member m => some m.span
  | .expr _ | .stmt _ => none

/-- One stretch lies in another. -/
def Span.Within (a b : Span) : Prop :=
  b.lo ≤ a.lo ∧ a.hi ≤ b.hi

/-- Two stretches have no byte in common. -/
def Span.Apart (a b : Span) : Prop :=
  a.hi ≤ b.lo ∨ b.hi ≤ a.lo

/-- A body opens in its stretch, behind all that stands in front of it, and its members follow,
one behind the other. `stretch` tells where the parts of its owner stand. -/
structure Body.Laid (b : Body) (stretch : List Nat → Span) : Prop where
  opens : (stretch []).lo ≤ b.opening
  front : ∀ i < b.front.length, (stretch [i]).hi ≤ b.opening
  inside : ∀ m ∈ b.members, b.opening ≤ m.span.lo
  forward : ∀ m ∈ b.members, m.span.lo ≤ m.span.hi
  ordered : b.members.Pairwise fun m m' => m.span.hi ≤ m'.span.lo

/-- Parts are laid out along stretches, by their positions: what is in a part stands inside of it,
and one part of it is apart from another. -/
structure Laid (ns : List Node) (stretch : List Nat → Span) : Prop where
  own : ∀ pos n span, Node.atPosition? ns pos = some n → n.span? = some span → stretch pos = span
  nested : ∀ pos i, (Node.atPosition? ns (pos ++ [i])).isSome →
    (stretch (pos ++ [i])).Within (stretch pos)
  apart : ∀ pos i j, i < j → (Node.atPosition? ns (pos ++ [j])).isSome →
    (stretch (pos ++ [i])).Apart (stretch (pos ++ [j]))
  bodies : ∀ pos n b, Node.atPosition? ns pos = some n → n.body? = some b →
    b.Laid fun rest => stretch (pos ++ rest)

theorem Node.atPosition?_cons (ns : List Node) (i : Nat) {pos : List Nat} (h : pos ≠ []) :
    atPosition? ns (i :: pos) = (ns[i]?).bind fun n => atPosition? n.children pos := by
  cases pos with
  | nil => exact absurd rfl h
  | cons j pos => rfl

/-- What leads to a part are parts. -/
theorem Node.isSome_atPosition?_of_append {ns : List Node} {pos rest : List Nat} (hpos : pos ≠ [])
    (h : (atPosition? ns (pos ++ rest)).isSome) : (atPosition? ns pos).isSome := by
  induction pos generalizing ns with
  | nil => exact absurd rfl hpos
  | cons i pos ih =>
    cases pos with
    | nil =>
      cases rest with
      | nil => exact h
      | cons j rest =>
        obtain ⟨n, hn⟩ := Option.isSome_iff_exists.mp h
        obtain ⟨m, hm, -⟩ := Option.bind_eq_some_iff.mp hn
        exact Option.isSome_iff_exists.mpr ⟨m, hm⟩
    | cons j pos =>
      obtain ⟨n, hn⟩ := Option.isSome_iff_exists.mp h
      obtain ⟨m, hm, hn⟩ := Option.bind_eq_some_iff.mp hn
      show ((ns[i]?).bind fun m => atPosition? m.children (j :: pos)).isSome
      rw [hm, Option.bind_some]
      exact ih (List.cons_ne_nil j pos) (Option.isSome_iff_exists.mpr ⟨n, hn⟩)

theorem Span.Within.trans {a b c : Span} (h : a.Within b) (h' : b.Within c) : a.Within c :=
  ⟨Nat.le_trans h'.1 h.1, Nat.le_trans h.2 h'.2⟩

namespace Body.Laid

variable {b : Body} {stretch : List Nat → Span}

theorem opening_le_placeOf (h : b.Laid stretch) (k : Nat) : b.opening ≤ b.placeOf k := by
  unfold Body.placeOf
  cases hlast : (b.members.take k).getLast? with
  | none => exact Nat.le_refl _
  | some m =>
    have hm := List.mem_of_mem_take (List.mem_of_getLast? hlast)
    exact Nat.le_trans (h.inside m hm) (h.forward m hm)

/-- Of two members the one with the lower number stands first. -/
theorem le_of_lt (h : b.Laid stretch) {i j : Nat} {m m' : Member} (hij : i < j)
    (hm : b.members[i]? = some m) (hm' : b.members[j]? = some m') : m.span.hi ≤ m'.span.lo := by
  obtain ⟨hi, rfl⟩ := List.getElem?_eq_some_iff.mp hm
  obtain ⟨hj, rfl⟩ := List.getElem?_eq_some_iff.mp hm'
  exact List.pairwise_iff_getElem.mp h.ordered i j hi hj hij

/-- A member ends before the gaps behind it. -/
theorem le_placeOf (h : b.Laid stretch) {i k : Nat} {m : Member} (hik : i < k)
    (hk : k ≤ b.members.length) (hm : b.members[i]? = some m) : m.span.hi ≤ b.placeOf k := by
  obtain ⟨j, rfl⟩ := Nat.exists_eq_succ_of_ne_zero (Nat.ne_of_gt (Nat.zero_lt_of_lt hik))
  obtain ⟨last, hlast⟩ : ∃ last, b.members[j]? = some last := ⟨_, List.getElem?_eq_getElem hk⟩
  have hplace : b.placeOf (j + 1) = last.span.hi := by
    unfold Body.placeOf
    rw [List.take_add_one, hlast, Option.toList_some, List.getLast?_concat]
    rfl
  rw [hplace]
  rcases Nat.lt_or_eq_of_le (Nat.le_of_lt_succ hik) with hij | rfl
  · have hle := h.le_of_lt hij hm hlast
    have hforward := h.forward last (List.mem_of_getElem? hlast)
    omega
  · rw [hm] at hlast
    cases hlast
    exact Nat.le_refl _

end Body.Laid

theorem Body.signature?_eq_some_iff {b : Body} {k : Nat} {sig : Signature} :
    b.signature? k = some sig ↔
      b.members[k]? = some (.property sig.1) ∧ sig.2 = b.placeOf k := by
  unfold Body.signature?
  constructor
  · intro h
    split at h
    next p hp =>
      cases h
      exact ⟨hp, rfl⟩
    next => cases h
  · rintro ⟨hp, hplace⟩
    rw [hp, ← hplace]

namespace Laid

variable {s : Source} {ns : List Node} {stretch : List Nat → Span}

/-- What leads on from a part stands inside of it. -/
theorem within (h : Laid ns stretch) {pos rest : List Nat}
    (hat : (Node.atPosition? ns (pos ++ rest)).isSome) :
    (stretch (pos ++ rest)).Within (stretch pos) := by
  induction rest generalizing pos with
  | nil =>
    rw [List.append_nil]
    exact ⟨Nat.le_refl _, Nat.le_refl _⟩
  | cons i rest ih =>
    have hsplit : pos ++ i :: rest = (pos ++ [i]) ++ rest := by
      rw [List.append_assoc, List.singleton_append]
    rw [hsplit] at hat ⊢
    have hstep := Node.isSome_atPosition?_of_append (List.append_ne_nil_of_right_ne_nil _
      (List.cons_ne_nil i [])) hat
    exact (ih hat).trans (h.nested pos i hstep)

/-- A property that is signed stands among the parts of the owner of its body. -/
theorem bodies_of_signatureAt? (h : Laid (s.items.flatMap Item.parts) stretch) {pos : List Nat}
    {k : Nat} {sig : Signature} (hsig : s.signatureAt? pos k = some sig) :
    ∃ n b, s.atPosition? pos = some n ∧ n.body? = some b ∧ b.signature? k = some sig ∧
      b.Laid fun rest => stretch (pos ++ rest) := by
  obtain ⟨n, b, hn, hb, hk⟩ := Source.signatureAt?_eq_some_iff.mp hsig
  exact ⟨n, b, hn, hb, hk, h.bodies pos n b hn hb⟩

/-- The member of a body with the number `k` stands behind what is in front of the body. -/
theorem atPosition?_member {pos : List Nat} {n : Node} (hn : s.atPosition? pos = some n) {b : Body}
    (hb : n.body? = some b) {k : Nat} {m : Member} (hm : b.members[k]? = some m) :
    s.atPosition? (pos ++ [b.front.length + k]) = some (.member m) := by
  unfold Source.atPosition?
  rw [Node.atPosition?_concat hn, Node.children_of_body? hb,
    List.getElem?_append_right (Nat.le_add_right _ _), Nat.add_sub_cancel_left, List.getElem?_map,
    hm]
  rfl

/-- A gap lies in the stretch of the owner of its body. -/
theorem gap_within (h : Laid (s.items.flatMap Item.parts) stretch) {pos : List Nat} {k : Nat}
    {sig : Signature} (hsig : s.signatureAt? pos k = some sig) :
    Span.Within ⟨sig.2, sig.1.span.lo⟩ (stretch pos) := by
  obtain ⟨n, b, hn, hb, hk, hlaid⟩ := h.bodies_of_signatureAt? hsig
  obtain ⟨hmember, hplace⟩ := Body.signature?_eq_some_iff.mp hk
  have hopens : (stretch (pos ++ [])).lo ≤ b.opening := hlaid.opens
  have hopening := hlaid.opening_le_placeOf k
  have hforward := hlaid.forward _ (List.mem_of_getElem? hmember)
  have hat := atPosition?_member hn hb hmember
  have hown := h.own _ _ _ hat rfl
  have hnested := h.nested _ _ (Option.isSome_iff_exists.mpr ⟨_, hat⟩)
  rw [List.append_nil] at hopens
  rw [hown] at hnested
  refine ⟨?_, ?_⟩
  · show (stretch pos).lo ≤ sig.2
    omega
  · exact Nat.le_trans hforward hnested.2

/-- What stands inside of the owner of a body is clear of the gaps between the members. -/
theorem gap_clear (h : Laid (s.items.flatMap Item.parts) stretch) {pos : List Nat} {k : Nat}
    {sig : Signature} (hsig : s.signatureAt? pos k = some sig) {i : Nat} {rest : List Nat}
    (hat : (s.atPosition? (pos ++ i :: rest)).isSome) :
    Span.Apart (stretch (pos ++ i :: rest)) ⟨sig.2, sig.1.span.lo⟩ := by
  obtain ⟨n, b, hn, hb, hk, hlaid⟩ := h.bodies_of_signatureAt? hsig
  obtain ⟨hmember, hplace⟩ := Body.signature?_eq_some_iff.mp hk
  have hsplit : pos ++ i :: rest = (pos ++ [i]) ++ rest := by
    rw [List.append_assoc, List.singleton_append]
  rw [hsplit] at hat ⊢
  have hwithin := h.within hat
  have hchild : (s.atPosition? (pos ++ [i])).isSome :=
    Node.isSome_atPosition?_of_append
      (List.append_ne_nil_of_right_ne_nil _ (List.cons_ne_nil i [])) hat
  have hopening := hlaid.opening_le_placeOf k
  by_cases hi : i < b.front.length
  · -- in front of the body
    have hfront : (stretch (pos ++ [i])).hi ≤ b.opening := hlaid.front i hi
    have hends := hwithin.2
    left
    show (stretch (pos ++ [i] ++ rest)).hi ≤ sig.2
    omega
  · obtain ⟨j, rfl⟩ := Nat.exists_eq_add_of_le (Nat.le_of_not_lt hi)
    obtain ⟨m, hm⟩ : ∃ m, b.members[j]? = some m := by
      unfold Source.atPosition? at hchild
      rw [Node.atPosition?_concat hn, Node.children_of_body? hb,
        List.getElem?_append_right (Nat.le_add_right _ _), Nat.add_sub_cancel_left,
        List.getElem?_map, Option.isSome_map] at hchild
      exact Option.isSome_iff_exists.mp hchild
    have hown := h.own _ _ _ (atPosition?_member hn hb hm) rfl
    rw [hown] at hwithin
    obtain ⟨hlength, -⟩ := List.getElem?_eq_some_iff.mp hmember
    by_cases hjk : j < k
    · -- in a member in front of the gap
      have hle := hlaid.le_placeOf hjk (Nat.le_of_lt hlength) hm
      left
      show (stretch (pos ++ [b.front.length + j] ++ rest)).hi ≤ sig.2
      rw [hplace]
      exact Nat.le_trans hwithin.2 hle
    · -- in the signature of the gap, or in a member behind it
      have hle : sig.1.span.lo ≤ m.span.lo := by
        rcases Nat.lt_or_eq_of_le (Nat.le_of_not_lt hjk) with hkj | rfl
        · have hforward := hlaid.forward _ (List.mem_of_getElem? hmember)
          exact Nat.le_trans hforward (hlaid.le_of_lt hkj hmember hm)
        · rw [hmember] at hm
          cases hm
          exact Nat.le_refl _
      right
      exact Nat.le_trans hle hwithin.1

end Laid

/-! ### A check that computes -/

instance (a b : Span) : Decidable (a.Within b) :=
  inferInstanceAs (Decidable (_ ∧ _))

instance (a b : Span) : Decidable (a.Apart b) :=
  inferInstanceAs (Decidable (_ ∨ _))

/-- Whether a body is laid out along stretches. -/
def Body.isLaid (b : Body) (stretch : List Nat → Span) : Bool :=
  decide ((stretch []).lo ≤ b.opening) &&
    (List.range b.front.length).all (fun i => (stretch [i]).hi ≤ b.opening) &&
    b.members.all (fun m => b.opening ≤ m.span.lo && m.span.lo ≤ m.span.hi) &&
    decide (b.members.Pairwise fun m m' => m.span.hi ≤ m'.span.lo)

theorem Body.laid_of_isLaid {b : Body} {stretch : List Nat → Span}
    (h : b.isLaid stretch = true) : b.Laid stretch := by
  unfold Body.isLaid at h
  simp only [Bool.and_eq_true, decide_eq_true_eq, List.all_eq_true, List.mem_range] at h
  obtain ⟨⟨⟨hopens, hfront⟩, hmembers⟩, hordered⟩ := h
  exact ⟨hopens, hfront, fun m hm => (hmembers m hm).1, fun m hm => (hmembers m hm).2, hordered⟩

/-- Whether parts, which nest no deeper than `depth`, are laid out along stretches. -/
def isLaid : Nat → List Node → (List Nat → Span) → Bool
  | 0, ns, _ => ns.isEmpty
  | depth + 1, ns, stretch =>
    ns.zipIdx.all fun (n, i) =>
      decide ((stretch [i]).Within (stretch [])) &&
      (List.range i).all (fun j => decide ((stretch [j]).Apart (stretch [i]))) &&
      n.span?.all (stretch [i] = ·) &&
      n.body?.all (·.isLaid fun rest => stretch (i :: rest)) &&
      isLaid depth n.children fun rest => stretch (i :: rest)

theorem laid_of_isLaid {depth : Nat} {ns : List Node} {stretch : List Nat → Span}
    (h : isLaid depth ns stretch = true) : Laid ns stretch := by
  induction depth generalizing ns stretch with
  | zero =>
    obtain rfl := List.isEmpty_iff.mp h
    have hnone (pos : List Nat) : ¬(Node.atPosition? [] pos).isSome := by
      rw [Node.atPosition?_nil]
      exact Bool.false_ne_true
    have hpart (pos : List Nat) (n : Node) : Node.atPosition? [] pos ≠ some n := by
      rw [Node.atPosition?_nil]
      exact nofun
    exact ⟨fun _ _ _ hn => (hpart _ _ hn).elim, fun _ _ hat => (hnone _ hat).elim,
      fun _ _ _ _ hat => (hnone _ hat).elim, fun _ _ _ hn => (hpart _ _ hn).elim⟩
  | succ depth ih =>
    have hpart {i : Nat} {n : Node} (hn : ns[i]? = some n) :
        (stretch [i]).Within (stretch []) ∧ (∀ j < i, (stretch [j]).Apart (stretch [i])) ∧
          (∀ span, n.span? = some span → stretch [i] = span) ∧
          (∀ b, n.body? = some b → b.Laid fun rest => stretch (i :: rest)) ∧
          Laid n.children fun rest => stretch (i :: rest) := by
      have hcheck := List.all_eq_true.mp h (n, i) (List.mem_zipIdx_iff_getElem?.mpr hn)
      simp only [Bool.and_eq_true, decide_eq_true_eq, List.all_eq_true, List.mem_range,
        Option.all_eq_true] at hcheck
      obtain ⟨⟨⟨⟨hwithin, hapart⟩, hown⟩, hbody⟩, hbelow⟩ := hcheck
      exact ⟨hwithin, hapart, hown, fun b hb => Body.laid_of_isLaid (hbody b hb), ih hbelow⟩
    -- what stands deeper is in a part, and is laid out along its stretches
    have hdeep {i : Nat} {rest : List Nat} (hrest : rest ≠ []) {n : Node}
        (hn : Node.atPosition? ns (i :: rest) = some n) :
        ∃ m : Node, Node.atPosition? m.children rest = some n ∧
          Laid m.children fun rest => stretch (i :: rest) := by
      rw [Node.atPosition?_cons ns i hrest] at hn
      obtain ⟨m, hm, hn⟩ := Option.bind_eq_some_iff.mp hn
      exact ⟨m, hn, (hpart hm).2.2.2.2⟩
    refine ⟨?_, ?_, ?_, ?_⟩
    · intro pos n span hn hspan
      cases pos with
      | nil => cases hn
      | cons i rest =>
        cases rest with
        | nil => exact (hpart hn).2.2.1 span hspan
        | cons j rest =>
          obtain ⟨m, hn, hlaid⟩ := hdeep (List.cons_ne_nil j rest) hn
          exact hlaid.own _ n span hn hspan
    · intro pos i hat
      obtain ⟨n, hn⟩ := Option.isSome_iff_exists.mp hat
      cases pos with
      | nil => exact (hpart hn).1
      | cons j pos =>
        obtain ⟨m, hn, hlaid⟩ :=
          hdeep (List.append_ne_nil_of_right_ne_nil pos (List.cons_ne_nil i [])) hn
        exact hlaid.nested pos i (Option.isSome_iff_exists.mpr ⟨n, hn⟩)
    · intro pos i j hij hat
      obtain ⟨n, hn⟩ := Option.isSome_iff_exists.mp hat
      cases pos with
      | nil => exact (hpart hn).2.1 i hij
      | cons k pos =>
        obtain ⟨m, hn, hlaid⟩ :=
          hdeep (List.append_ne_nil_of_right_ne_nil pos (List.cons_ne_nil j [])) hn
        exact hlaid.apart pos i j hij (Option.isSome_iff_exists.mpr ⟨n, hn⟩)
    · intro pos n b hn hb
      cases pos with
      | nil => cases hn
      | cons i rest =>
        cases rest with
        | nil => exact (hpart hn).2.2.2.1 b hb
        | cons j rest =>
          obtain ⟨m, hn, hlaid⟩ := hdeep (List.cons_ne_nil j rest) hn
          exact hlaid.bodies _ n b hn hb

/-! ## One comment, one signature -/

/-- A comment that is not empty is not in two stretches that are apart. -/
theorem Span.Apart.not_within {a b c : Span} (h : a.Apart b) (hfilled : c.lo < c.hi)
    (ha : c.Within a) (hb : c.Within b) : False := by
  obtain ⟨halo, hahi⟩ := ha
  obtain ⟨hblo, hbhi⟩ := hb
  rcases h with h | h
  · omega
  · omega

/-- Of two positions one leads to the other, or they part. -/
theorem position_cases (pos pos' : List Nat) : pos = pos' ∨
    (∃ i rest, pos' = pos ++ i :: rest) ∨ (∃ i rest, pos = pos' ++ i :: rest) ∨
    ∃ front i j rest rest', i < j ∧
      (pos = front ++ i :: rest ∧ pos' = front ++ j :: rest' ∨
        pos' = front ++ i :: rest ∧ pos = front ++ j :: rest') := by
  induction pos generalizing pos' with
  | nil =>
    cases pos' with
    | nil => exact .inl rfl
    | cons i rest => exact .inr (.inl ⟨i, rest, rfl⟩)
  | cons i rest ih =>
    cases pos' with
    | nil => exact .inr (.inr (.inl ⟨i, rest, rfl⟩))
    | cons j rest' =>
      rcases Nat.lt_trichotomy i j with hij | rfl | hij
      · exact .inr (.inr (.inr ⟨[], i, j, rest, rest', hij, .inl ⟨rfl, rfl⟩⟩))
      · rcases ih rest' with rfl | ⟨k, more, rfl⟩ | ⟨k, more, rfl⟩ |
          ⟨front, k, l, more, more', hkl, ⟨rfl, rfl⟩ | ⟨rfl, rfl⟩⟩
        · exact .inl rfl
        · exact .inr (.inl ⟨k, more, rfl⟩)
        · exact .inr (.inr (.inl ⟨k, more, rfl⟩))
        · exact .inr (.inr (.inr ⟨i :: front, k, l, more, more', hkl, .inl ⟨rfl, rfl⟩⟩))
        · exact .inr (.inr (.inr ⟨i :: front, k, l, more, more', hkl, .inr ⟨rfl, rfl⟩⟩))
      · exact .inr (.inr (.inr ⟨[], j, i, rest', rest, hij, .inr ⟨rfl, rfl⟩⟩))

theorem InGap.within {c : Comment} {sig : Signature} (h : InGap c sig) :
    c.span.Within ⟨sig.2, sig.1.span.lo⟩ :=
  ⟨h.behind, h.before⟩

/-- Two gaps of one body are apart. -/
theorem Body.Laid.gaps_apart {b : Body} {stretch : List Nat → Span} (h : b.Laid stretch)
    {k k' : Nat} (hlt : k < k') {sig sig' : Signature} (hk : b.signature? k = some sig)
    (hk' : b.signature? k' = some sig') :
    Span.Apart ⟨sig.2, sig.1.span.lo⟩ ⟨sig'.2, sig'.1.span.lo⟩ := by
  obtain ⟨hmember, -⟩ := Body.signature?_eq_some_iff.mp hk
  obtain ⟨hmember', hplace'⟩ := Body.signature?_eq_some_iff.mp hk'
  obtain ⟨hlength, -⟩ := List.getElem?_eq_some_iff.mp hmember'
  have hforward := h.forward _ (List.mem_of_getElem? hmember)
  have hle := h.le_placeOf hlt (Nat.le_of_lt hlength) hmember
  left
  show sig.1.span.lo ≤ sig'.2
  rw [hplace']
  exact Nat.le_trans hforward hle

namespace Laid

variable {s : Source} {stretch : List Nat → Span}

/-- No comment that is not empty stands in two gaps. -/
theorem gap_unique (h : Laid (s.items.flatMap Item.parts) stretch) {c : Comment}
    (hfilled : c.span.lo < c.span.hi) {pos pos' : List Nat} {k k' : Nat} {sig sig' : Signature}
    (hsig : s.signatureAt? pos k = some sig) (hsig' : s.signatureAt? pos' k' = some sig')
    (hgap : InGap c sig) (hgap' : InGap c sig') : pos = pos' ∧ k = k' := by
  have hpart {pos : List Nat} {k : Nat} {sig : Signature}
      (hsig : s.signatureAt? pos k = some sig) : (s.atPosition? pos).isSome := by
    obtain ⟨n, b, hn, -, -⟩ := Source.signatureAt?_eq_some_iff.mp hsig
    exact Option.isSome_iff_exists.mpr ⟨n, hn⟩
  have hin := hgap.within.trans (h.gap_within hsig)
  have hin' := hgap'.within.trans (h.gap_within hsig')
  -- where positions part, the comment would stand in two parts that are apart
  have hparted {front : List Nat} {i j : Nat} {rest rest' : List Nat} (hij : i < j)
      (hi : (s.atPosition? (front ++ i :: rest)).isSome)
      (hj : (s.atPosition? (front ++ j :: rest')).isSome)
      (hcomment : c.span.Within (stretch (front ++ i :: rest)))
      (hcomment' : c.span.Within (stretch (front ++ j :: rest'))) : False := by
    have hsplit (i : Nat) (rest : List Nat) : front ++ i :: rest = (front ++ [i]) ++ rest := by
      rw [List.append_assoc, List.singleton_append]
    rw [hsplit] at hi hj hcomment hcomment'
    have hstep := Node.isSome_atPosition?_of_append
      (List.append_ne_nil_of_right_ne_nil front (List.cons_ne_nil j [])) hj
    exact (h.apart front i j hij hstep).not_within hfilled (hcomment.trans (h.within hi))
      (hcomment'.trans (h.within hj))
  rcases position_cases pos pos' with rfl | ⟨i, rest, rfl⟩ | ⟨i, rest, rfl⟩ |
    ⟨front, i, j, rest, rest', hij, ⟨rfl, rfl⟩ | ⟨rfl, rfl⟩⟩
  · -- two members of one body
    obtain ⟨n, b, hn, hb, hk, hlaid⟩ := h.bodies_of_signatureAt? hsig
    obtain ⟨n', b', hn', hb', hk', -⟩ := h.bodies_of_signatureAt? hsig'
    obtain rfl := Option.some.inj (hn.symm.trans hn')
    obtain rfl := Option.some.inj (hb.symm.trans hb')
    refine ⟨rfl, ?_⟩
    rcases Nat.lt_trichotomy k k' with hlt | heq | hlt
    · exact ((hlaid.gaps_apart hlt hk hk').not_within hfilled hgap.within hgap'.within).elim
    · exact heq
    · exact ((hlaid.gaps_apart hlt hk' hk).not_within hfilled hgap'.within hgap.within).elim
  · exact ((h.gap_clear hsig (hpart hsig')).not_within hfilled hin' hgap.within).elim
  · exact ((h.gap_clear hsig' (hpart hsig)).not_within hfilled hin hgap'.within).elim
  · exact (hparted hij (hpart hsig) (hpart hsig') hin hin').elim
  · exact (hparted hij (hpart hsig') (hpart hsig) hin' hin).elim

end Laid

end TypeScript

/-- **A doc block documents one property.** What is found, as written or with names resolved, is
signed in a body of a source that has been read, and its doc is the description of the last doc
comment with a description between the end of the member before it, or the opening of the body,
and the signature; if there is no such comment, it has no doc. Every signature of a source gets
its doc in this way, however its body is nested. And where the parts of the source nest, and the
members of its bodies stand in their order, no comment documents two signatures. -/
theorem doc_blocks_apart :
    (∀ path text name shapes, AsWritten.extract path text name = .found shapes →
      ∃ s, Source.read path text = some s ∧ ∀ shape ∈ shapes, s.Documented shape) ∧
    (∀ fs path text c name shapes, Context.build fs path text = .ok c →
      c.extract name = .found shapes → ∀ shape ∈ shapes, ∃ f ∈ c.program.files,
        (∃ text, Source.read f.path text = some f.source) ∧ f.source.Documented shape) ∧
    ∀ path text s, Source.read path text = some s →
      (∀ pos k sig, s.signatureAt? pos k = some sig → s.TellsDoc sig (s.docOf sig.1 sig.2)) ∧
      ∀ stretch, Laid (s.items.flatMap Item.parts) stretch →
        ∀ c pos pos' k k' sig sig' doc doc',
          s.signatureAt? pos k = some sig → s.Documents c sig doc →
          s.signatureAt? pos' k' = some sig' → s.Documents c sig' doc' →
          pos = pos' ∧ k = k' := by
  refine ⟨?_, ?_, ?_⟩
  · intro path text name shapes hfound
    obtain ⟨s, hs, hsigns⟩ := AsWritten.signs_of_extract hfound
    obtain ⟨stop, hpassed⟩ := passed_of_parse hs
    exact ⟨s, hs, fun shape hshape => (hsigns shape hshape).documented hpassed⟩
  · intro fs path text c name shapes hbuild hfound shape hshape
    obtain ⟨f, hf, hsigns⟩ := Context.signs_of_extract hbuild hfound shape hshape
    obtain ⟨-, p, hload, rfl⟩ := build_eq_ok_iff.mp hbuild
    obtain ⟨-, text', hread⟩ := Program.read_of_load hload f hf
    obtain ⟨stop, hpassed⟩ := passed_of_parse hread
    exact ⟨f, hf, ⟨text', hread⟩, hsigns.documented hpassed⟩
  · intro path text s hs
    obtain ⟨stop, hpassed⟩ := passed_of_parse hs
    refine ⟨fun pos k sig _ => s.tellsDoc_docOf hpassed sig, ?_⟩
    intro stretch hlaid c pos pos' k k' sig sig' doc doc' hsig hc hsig' hc'
    have hfilled := hpassed.filled c (List.mem_reverse.mpr hc.mem)
    exact hlaid.gap_unique hfilled hsig hsig' hc.gap hc'.gap

/-- An interface with comments in front of properties and of a method, behind a property on the
same line, and in a nested body. -/
def blocksText : String :=
  "interface X \x7b\n" ++
  "  /** A */ a: \x7b /** B */ b: 1 \x7d;\n" ++
  "  /** M */ m(): 1;\n" ++
  "  /** N */ /** C */ c: 1; /** D */\n" ++
  "  d: 1 \x7d"

/-- Where the parts of the interface stand. -/
def blocksStretch : List Nat → Span
  | [0, 0] => ⟨25, 46⟩
  | [0, 0, 0] => ⟨25, 26⟩
  | [0, 0, 1] => ⟨28, 45⟩
  | [0, 0, 1, 0] => ⟨39, 43⟩
  | [0, 0, 1, 0, 0] => ⟨39, 40⟩
  | [0, 0, 1, 0, 1] => ⟨42, 43⟩
  | [0, 1] => ⟨58, 65⟩
  | [0, 1, 0] => ⟨58, 59⟩
  | [0, 1, 1] => ⟨63, 64⟩
  | [0, 2] => ⟨86, 91⟩
  | [0, 2, 0] => ⟨86, 87⟩
  | [0, 2, 1] => ⟨89, 90⟩
  | [0, 3] => ⟨103, 107⟩
  | [0, 3, 0] => ⟨103, 104⟩
  | [0, 3, 1] => ⟨106, 107⟩
  | _ => ⟨0, 109⟩

/-- The docs of what is found, by the names. -/
def docsOf (e : Extraction) : List (String × Option String) :=
  e.shapes.map fun shape => (shape.name, shape.doc)

/-- The docs of the interface, by the names. -/
def blocksDocs : List (String × Option String) :=
  [("a", some "A"), ("c", some "C"), ("d", some "D")]

/-- Both extractions find the docs, and the comment in the nested body documents the property in
it and no other one. -/
theorem doc_blocks_apart_nested : ∃ s c,
    Source.read onePath blocksText = some s ∧
    Laid (s.items.flatMap Item.parts) blocksStretch ∧
    Context.build (oneFile blocksText) onePath blocksText = .ok c ∧
    docsOf (AsWritten.extract onePath blocksText (some "X")) = blocksDocs ∧
    docsOf (c.extract (some "X")) = blocksDocs ∧
    (∀ shape ∈ (AsWritten.extract onePath blocksText (some "X")).shapes,
      s.Documented shape) ∧
    (∀ shape ∈ (c.extract (some "X")).shapes,
      ∃ f ∈ c.program.files, f.source.Documented shape) ∧
    ∃ k, (∃ sig, s.signatureAt? [0, 0, 1] 0 = some sig ∧ s.Documents k sig "B") ∧
      ∀ pos i sig doc, s.signatureAt? pos i = some sig → s.Documents k sig doc →
        [0, 0, 1] = pos ∧ 0 = i := by
  have hany : (oneContext? blocksText).any (fun c =>
      decide (docsOf (c.extract (some "X")) = blocksDocs) &&
        (c.program.files.map SourceFile.source).all fun s =>
          isLaid 6 (s.items.flatMap Item.parts) blocksStretch &&
            decide (docsOf (.ofShapes (AsWritten.shapes s (some "X"))) = blocksDocs) &&
            (s.signatureAt? [0, 0, 1] 0).any
              (fun sig => s.docOf sig.1 sig.2 = some "B")) = true := by
    decide +kernel
  obtain ⟨c, hc, hall⟩ := Option.any_eq_true _ _ |>.mp hany
  rw [Bool.and_eq_true, decide_eq_true_eq] at hall
  obtain ⟨hdocs, hall⟩ := hall
  obtain ⟨s, hs, hall⟩ := exists_source_of_oneContext? hc hall
  simp only [Bool.and_eq_true, decide_eq_true_eq] at hall
  obtain ⟨⟨hlaid, hwrittenDocs⟩, hinner⟩ := hall
  have hbuild := build_of_oneContext? hc
  obtain ⟨hwritten, hresolved, hsource⟩ := doc_blocks_apart
  obtain ⟨htells, hunique⟩ := hsource onePath blocksText s hs
  obtain ⟨sig, hsig, hdoc⟩ := Option.any_eq_true _ _ |>.mp hinner
  have hdocuments := htells [0, 0, 1] 0 sig hsig
  rw [of_decide_eq_true hdoc] at hdocuments
  obtain ⟨k, hk⟩ := hdocuments
  refine ⟨s, _, hs, laid_of_isLaid hlaid, hbuild, ?_, ?_, ?_, ?_, k, ⟨sig, hsig, hk⟩, ?_⟩
  · rw [AsWritten.extract_of_read hs]
    exact hwrittenDocs
  · exact hdocs
  · intro shape hshape
    obtain ⟨shapes, hfound, hshape⟩ := exists_found_of_mem_shapes hshape
    obtain ⟨s', hs', hshapes⟩ := hwritten onePath blocksText (some "X") shapes hfound
    obtain rfl : s = s' := Option.some.inj (hs.symm.trans hs')
    exact hshapes shape hshape
  · intro shape hshape
    obtain ⟨shapes, hfound, hshape⟩ := exists_found_of_mem_shapes hshape
    obtain ⟨f, hf, -, hshape⟩ :=
      hresolved _ onePath blocksText _ (some "X") shapes hbuild hfound shape hshape
    exact ⟨f, hf, hshape⟩
  · intro pos i sig' doc hsig' hk'
    exact hunique blocksStretch (laid_of_isLaid hlaid) k _ pos _ i sig sig' _ doc hsig hk hsig' hk'

end ElementManifest
