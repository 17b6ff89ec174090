import ElementManifest.Companion
import ElementManifest.Proofs.PathPlaces

/-!
# Names of companion files

A companion is looked for under the name of its module, with one of two endings:

> `fileName?_of_mem_candidates`: what its own name is.

The name of the module can be read off again, and so the name of a type that the companion
is searched for is the same from both sides (`namesInFile_of_mem_candidates`).
-/

namespace ElementManifest.Companion

/-- The name of a module is a part of a path. -/
theorem free_of_baseName? {module : Path} {base : String} (h : baseName? module = some base) :
    base ≠ "" ∧ ∀ x ∈ base.toList, x ≠ '/' := by
  obtain ⟨hstem, hne⟩ := Option.filter_eq_some_iff.mp h
  refine ⟨of_decide_eq_true hne, ?_⟩
  obtain ⟨name, hname, rfl⟩ := Option.map_eq_some_iff.mp hstem
  have hfree : ∀ x ∈ name.toList, x ≠ '/' := by
    unfold Path.fileName? at hname
    split at hname
    next text hlast =>
      obtain rfl : text = name := Option.some.inj hname
      rcases Path.inner_of_mem_components (List.mem_of_getLast? hlast) with hroot | hhere | hinner
      · cases hroot
      · cases hhere
      · exact hinner.1
    next => cases hname
  intro x hx
  rw [String.toList_ofList] at hx
  refine hfree x ?_
  -- the stem consists of characters of the name
  unfold Path.cutName at hx
  split at hx
  next stem hstem =>
    split at hx
    next => exact hx
    next =>
      have hsuffix : '.' :: stem <:+ name.toList.reverse := hstem ▸ List.dropWhile_suffix _
      have hmem : x ∈ '.' :: stem := List.mem_cons_of_mem _ (List.mem_reverse.mp hx)
      exact List.mem_reverse.mp (hsuffix.subset hmem)
  next => exact hx

/-- The ending that a companion was given is the one that is found. -/
theorem find?_ending {base ending : String} (h : ending ∈ endings) :
    [".types.d.ts", ".types.ts", ".d.ts", ".ts"].find? ((base ++ ending).endsWith ·) =
      some ending := by
  have hself : (base ++ ending).endsWith ending = true := by
    rw [Path.endsWith_iff, String.toList_append]
    exact List.suffix_append _ _
  simp only [endings, List.mem_cons, List.not_mem_nil, or_false] at h
  rcases h with rfl | rfl
  · simp only [List.find?_cons, hself]
  · have hother : (base ++ ".types.ts").endsWith ".types.d.ts" = false := by
      -- the two differ in the fourth character from the end
      rw [Bool.eq_false_iff, Ne, Path.endsWith_iff, String.toList_append]
      rintro ⟨front, heq⟩
      have hrev := congrArg (fun s => s.reverse[3]?) heq
      simp at hrev
    simp only [List.find?_cons, hother, hself]

/-- A companion is named like its module, with another ending. -/
theorem fileName?_of_mem_candidates {module companion : Path} (h : companion ∈ candidates module) :
    ∃ base ending, baseName? module = some base ∧ base ≠ "" ∧ ending ∈ endings ∧
      companion.fileName? = some (base ++ ending) := by
  unfold candidates at h
  split at h
  next base hbase =>
    obtain ⟨ending, hending, rfl⟩ := List.mem_map.mp h
    obtain ⟨hne, hfree⟩ := free_of_baseName? hbase
    have hlong : ∀ e ∈ endings, 3 ≤ e.toList.length ∧ '/' ∉ e.toList := by decide
    obtain ⟨hlength, hslash⟩ := hlong ending hending
    have hchars : (base ++ ending).toList = base.toList ++ ending.toList := String.toList_append
    have hfree' : ∀ x ∈ (base ++ ending).toList, x ≠ '/' := by
      intro x hx
      rw [hchars] at hx
      rcases List.mem_append.mp hx with hx | hx
      · exact hfree x hx
      · exact fun heq => hslash (heq ▸ hx)
    have hcomponent : Path.componentOf (base ++ ending).toList = some (.name (base ++ ending)) := by
      rw [Path.componentOf_of_length (by rw [hchars, List.length_append]; omega),
        String.ofList_toList]
    have hcomponents := Path.components_join_part module.parent (parts_of_free hfree')
      (isAbsolute_of_free hfree') hcomponent
    refine ⟨base, ending, hbase, hne, hending, ?_⟩
    unfold Path.fileName?
    rw [hcomponents, List.getLast?_append]
    rfl
  next => cases h

theorem moduleBase?_of_mem_candidates {module companion : Path}
    (h : companion ∈ candidates module) : moduleBase? companion = baseName? module := by
  obtain ⟨base, ending, hbase, hne, hending, hname⟩ := fileName?_of_mem_candidates h
  have hcut : String.ofList ((base ++ ending).toList.take
      ((base ++ ending).length - ending.length)) = base := by
    have hlen : (base ++ ending).length - ending.length = base.toList.length := by
      rw [String.length_append, String.length_toList]
      omega
    rw [hlen, String.toList_append, List.take_left, String.ofList_toList]
  unfold moduleBase?
  rw [hname, Option.bind_eq_bind, Option.bind_some, find?_ending hending]
  simp only [Option.bind_some, hcut, if_neg hne, hbase]

/-- The names that are looked for in a companion are those of a registration without a class. -/
theorem namesInFile_of_mem_candidates {module companion : Path}
    (h : companion ∈ candidates module) :
    namesInFile companion = typeNames none (baseName? module) := by
  unfold namesInFile typeNames
  rw [moduleBase?_of_mem_candidates h]
  simp

end ElementManifest.Companion
