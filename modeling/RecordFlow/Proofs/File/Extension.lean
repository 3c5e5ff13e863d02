/-
# Names and extensions at the end of a path

A name behind the text of a directory is the last component of the path that the two make up, except
for a single dot, which counts for nothing there. So what replacing the extension does to a path is
decided by that name alone. A name without a dot behind its first character gets the extension
added, and any other name loses what stands behind its last dot. The name `..` is no file name, and
neither is what is left of a name that begins with two dots and has no other.
-/

import RecordFlow.File.Path

namespace RecordFlow.Path

/-- A component that counts at every place of a path. -/
structure IsComponent (name : List Char) : Prop where
  slash_not_mem : '/' ∉ name
  ne_nil : name ≠ []
  ne_dot : name ≠ ['.']

/-- A text that a component may follow: it is empty or ends with a slash. -/
def IsFront (front : List Char) : Prop := ∀ c ∈ front.getLast?, c = '/'

section Split

variable {front name kept rest : List Char}

theorem stripBack_reverse (h : IsComponent name) (back : List Char) :
    stripBack (name.reverse ++ back) = name.reverse ++ back := by
  obtain ⟨init, last, rfl⟩ := (List.eq_nil_or_concat name).resolve_left h.ne_nil
  rw [List.concat_eq_append] at h ⊢
  rw [List.reverse_concat, List.cons_append, stripBack.eq_def]
  split
  · next heq =>
      obtain ⟨rfl, -⟩ := List.cons.inj heq
      exact absurd List.mem_concat_self h.slash_not_mem
  · next heq =>
      obtain ⟨rfl, hnext⟩ := List.cons.inj heq
      cases hinit : init.reverse with
      | nil => exact absurd (by simpa using hinit) h.ne_dot
      | cons c back =>
          rw [hinit] at hnext
          obtain ⟨rfl, -⟩ := List.cons.inj hnext
          have hmem : '/' ∈ init := List.mem_reverse.mp (hinit ▸ List.mem_cons_self)
          exact absurd (List.mem_append_left _ hmem) h.slash_not_mem
  · rfl

/-- The last component of a path is the one behind the front. -/
theorem splitLast_append (hfront : IsFront front) (h : IsComponent name) :
    splitLast (front ++ name) = (front, name) := by
  have hname : ∀ c ∈ name.reverse, (c != '/') = true := by
    intro c hc
    rw [bne_iff_ne]
    rintro rfl
    exact h.slash_not_mem (List.mem_reverse.mp hc)
  have hback : front.reverse.takeWhile (· != '/') = [] ∧
      front.reverse.dropWhile (· != '/') = front.reverse := by
    cases hreverse : front.reverse with
    | nil => exact ⟨rfl, rfl⟩
    | cons c back =>
        have hlast : front.getLast? = some c := by
          rw [← List.head?_reverse, hreverse]
          rfl
        rw [hfront c hlast]
        exact ⟨rfl, rfl⟩
  simp only [splitLast, List.reverse_append, stripBack_reverse h,
    List.dropWhile_append_of_pos hname, List.takeWhile_append_of_pos hname, hback, List.append_nil,
    List.reverse_reverse]

/-- A name without a dot behind its first character has no extension. -/
theorem splitName_of_dotless (h : '.' ∉ name.tail) : splitName name = (name, none) := by
  cases name with
  | nil => rfl
  | cons c name =>
      have hdotless : ∀ d ∈ name.reverse, (d != '.') = true := by
        intro d hd
        rw [bne_iff_ne]
        rintro rfl
        exact h (List.mem_reverse.mp hd)
      rw [splitName, List.reverse_cons]
      simp only [List.dropWhile_append_of_pos hdotless]
      by_cases hc : c = '.' <;> simp [hc]

theorem splitName_append (hkept : kept ≠ []) (hrest : '.' ∉ rest) :
    splitName (kept ++ '.' :: rest) = (kept, some rest) := by
  have hdotless : ∀ d ∈ rest.reverse, (d != '.') = true := by
    intro d hd
    rw [bne_iff_ne]
    rintro rfl
    exact hrest (List.mem_reverse.mp hd)
  have hreverse : (kept ++ '.' :: rest).reverse = rest.reverse ++ '.' :: kept.reverse := by simp
  simp only [splitName, hreverse, List.dropWhile_append_of_pos hdotless,
    List.takeWhile_append_of_pos hdotless]
  simp [hkept]

/-- A name has no dot behind its first character, or a last one with something in front of it. -/
theorem dotless_or_append (name : List Char) :
    '.' ∉ name.tail ∨ ∃ kept rest, kept ≠ [] ∧ '.' ∉ rest ∧ name = kept ++ '.' :: rest := by
  by_cases h : '.' ∈ name.tail
  · obtain ⟨back, before, hsplit, hback⟩ := List.eq_append_cons_of_mem (List.mem_reverse.mpr h)
    have htail : name.tail = before.reverse ++ '.' :: back.reverse := by
      rw [← List.reverse_reverse name.tail, hsplit]
      simp
    cases name with
    | nil => exact absurd h List.not_mem_nil
    | cons c name =>
        have hrest : '.' ∉ back.reverse := fun hmem => hback (List.mem_reverse.mp hmem)
        refine .inr ⟨c :: before.reverse, back.reverse, List.cons_ne_nil _ _, hrest, ?_⟩
        rw [List.cons_append, ← htail]
        rfl
  · exact .inl h

theorem splitName_fst_begins (name : List Char) : (splitName name).1 <+: name := by
  rcases dotless_or_append name with h | ⟨kept, rest, hkept, hrest, rfl⟩
  · simp [splitName_of_dotless h]
  · simp [splitName_append hkept hrest]

theorem splitName_fst_ne_nil (hne : name ≠ []) : (splitName name).1 ≠ [] := by
  rcases dotless_or_append name with h | ⟨kept, rest, hkept, hrest, rfl⟩
  · rwa [splitName_of_dotless h]
  · rwa [splitName_append hkept hrest]

theorem ne_nil_of_isName (h : isName name) : name ≠ [] := by
  rintro rfl
  exact nomatch h

theorem IsComponent.isName_iff (h : IsComponent name) : isName name ↔ name ≠ ['.', '.'] := by
  simp [isName, h.ne_nil, h.ne_dot]

theorem slash_not_mem_splitLast (path : List Char) : '/' ∉ (splitLast path).2 := by
  intro hmem
  have hall := List.all_takeWhile (p := (· != '/')) (l := stripBack path.reverse)
  have hbad := List.all_eq_true.mp hall '/' (by simpa [splitLast] using hmem)
  exact nomatch hbad

/-- The stem of a path is a part of one component. -/
theorem of_stem?_eq_some {path stem : String} (h : stem? path = some stem) :
    stem ≠ "" ∧ '/' ∉ stem.toList := by
  obtain ⟨name, hname, rfl⟩ := Option.map_eq_some_iff.mp h
  unfold fileName? at hname
  dsimp only at hname
  split at hname
  · next hisName =>
      cases hname
      rw [Ne, ← String.toList_eq_nil_iff, String.toList_ofList, String.toList_ofList]
      refine ⟨splitName_fst_ne_nil (ne_nil_of_isName hisName), fun hslash => ?_⟩
      exact slash_not_mem_splitLast path.toList ((splitName_fst_begins _).subset hslash)
  · exact nomatch hname

/-- What stands up to the end of a stem is not a text that a component may follow. -/
theorem not_isFront_of_upToStem? {path kept : String} (h : upToStem? path = some kept) :
    ¬IsFront kept.toList := by
  simp only [upToStem?] at h
  split at h
  · next hname =>
      cases h
      obtain ⟨init, last, hstem⟩ :=
        (List.eq_nil_or_concat (splitName (splitLast path.toList).2).1).resolve_left
          (splitName_fst_ne_nil (ne_nil_of_isName hname))
      have hlast : last ∈ (splitLast path.toList).2 :=
        (splitName_fst_begins _).subset (by simp [hstem])
      rw [String.toList_ofList, hstem, List.concat_eq_append, ← List.append_assoc]
      intro hfront
      have heq : last = '/' := hfront last (by rw [List.getLast?_concat]; rfl)
      exact slash_not_mem_splitLast path.toList (heq ▸ hlast)
  · exact nomatch h

end Split

section Component

variable {front name kept rest : List Char} {extension : String}

theorem stem?_ofList (h : IsComponent name) (hname : isName name) :
    stem? (String.ofList name) = some (String.ofList (splitName name).1) := by
  have hsplit : splitLast ([] ++ name) = ([], name) := splitLast_append nofun h
  rw [List.nil_append] at hsplit
  simp [stem?, fileName?, hsplit, hname]

theorem upToStem?_append (hfront : IsFront front) (h : IsComponent name) :
    upToStem? (String.ofList (front ++ name)) =
      if isName name then some (String.ofList (front ++ (splitName name).1)) else none := by
  simp only [upToStem?, String.toList_ofList, splitLast_append hfront h]

theorem extension?_append (hfront : IsFront front) (h : IsComponent name) :
    extension? (String.ofList (front ++ name)) =
      if isName name then (splitName name).2.map String.ofList else none := by
  rw [extension?, fileName?, String.toList_ofList, splitLast_append hfront h]
  dsimp only
  split <;> simp

/-- A name without a dot behind its first character gets the extension added. -/
theorem withExtension_dotless (hfront : IsFront front) (h : IsComponent name)
    (hdotless : '.' ∉ name.tail) (hextension : extension ≠ "") :
    withExtension (String.ofList (front ++ name)) extension =
      String.ofList (front ++ name) ++ "." ++ extension := by
  have hname : isName name := h.isName_iff.mpr fun heq => by simp [heq] at hdotless
  have hcut : cutExtension (String.ofList (front ++ name)) = String.ofList (front ++ name) := by
    rw [cutExtension, extension?_append hfront h, if_pos hname, splitName_of_dotless hdotless]
    rfl
  rw [withExtension, hcut, setExtension, upToStem?_append hfront h, if_pos hname,
    splitName_of_dotless hdotless]
  simp [hextension]

/-- Behind the last dot of a name everything goes first, and the dot stays. -/
theorem cutExtension_append (hfront : IsFront front)
    (h : IsComponent (kept ++ '.' :: rest)) (hkept : kept ≠ []) (hrest : '.' ∉ rest) :
    cutExtension (String.ofList (front ++ (kept ++ '.' :: rest))) =
      String.ofList (front ++ (kept ++ ['.'])) := by
  by_cases hname : isName (kept ++ '.' :: rest) = true
  · rw [cutExtension, extension?_append hfront h, if_pos hname, splitName_append hkept hrest]
    have hall : front ++ (kept ++ '.' :: rest) = (front ++ (kept ++ ['.'])) ++ rest := by simp
    simp only [Option.map_some, String.toList_ofList, String.length_ofList]
    rw [hall, List.length_append, Nat.add_sub_cancel, List.take_left]
  · have hdots : kept ++ '.' :: rest = ['.', '.'] := by
      refine Decidable.byContradiction fun hne => hname (h.isName_iff.mpr hne)
    have hnil : rest = [] := by
      cases kept with
      | nil => exact absurd rfl hkept
      | cons c kept =>
          have hlength := congrArg List.length hdots
          simp only [List.length_append, List.length_cons, List.length_nil] at hlength
          exact List.length_eq_zero_iff.mp (by omega)
    rw [cutExtension, extension?_append hfront h, if_neg hname, hnil]

theorem isComponent_append_dot (h : IsComponent (kept ++ '.' :: rest)) (hkept : kept ≠ []) :
    IsComponent (kept ++ ['.']) where
  slash_not_mem hmem := by
    refine h.slash_not_mem (List.mem_append.mpr ((List.mem_append.mp hmem).imp id fun hdot => ?_))
    exact absurd (List.mem_singleton.mp hdot) (by decide)
  ne_nil := by simp
  ne_dot := by simpa using hkept

/-- A name with a dot behind its first character loses what stands behind its last dot. -/
theorem withExtension_append (hfront : IsFront front) (h : IsComponent (kept ++ '.' :: rest))
    (hkept : kept ≠ []) (hdot : kept ≠ ['.']) (hrest : '.' ∉ rest) (hextension : extension ≠ "") :
    withExtension (String.ofList (front ++ (kept ++ '.' :: rest))) extension =
      String.ofList (front ++ kept) ++ "." ++ extension := by
  have hcut := isComponent_append_dot h hkept
  have hname : isName (kept ++ ['.']) := by
    refine hcut.isName_iff.mpr fun heq => hdot ?_
    have heq : kept ++ ['.'] = ['.'] ++ ['.'] := heq
    exact List.append_inj_left' heq rfl
  rw [withExtension, cutExtension_append hfront h hkept hrest, setExtension,
    upToStem?_append hfront hcut, if_pos hname, splitName_append hkept List.not_mem_nil]
  simp [hextension]

/-- A name that begins with two dots and has no other is cut down to them. -/
theorem withExtension_dots (hfront : IsFront front) (hslash : '/' ∉ rest) (hrest : '.' ∉ rest) :
    withExtension (String.ofList (front ++ '.' :: '.' :: rest)) extension =
      String.ofList (front ++ ['.', '.']) := by
  have hcomponent : IsComponent (['.'] ++ '.' :: rest) := ⟨by simpa using hslash, by simp, by simp⟩
  have hdots : IsComponent ['.', '.'] := ⟨by decide, by decide, by decide⟩
  have hcut := cutExtension_append hfront hcomponent (List.cons_ne_nil _ _) hrest
  simp only [List.cons_append, List.nil_append] at hcut
  have hnone : upToStem? (String.ofList (front ++ ['.', '.'])) = none := by
    rw [upToStem?_append hfront hdots]
    rfl
  rw [withExtension, hcut, setExtension, hnone]

end Component

/-! ## Paths that end in nothing that counts

What a path loses at its end is not described any further. It is enough here that such a path comes
out shorter than one that keeps all of itself. -/

section Length

variable {path kept extension : String}

theorem length_stripBack_le (back : List Char) : (stripBack back).length ≤ back.length := by
  fun_induction stripBack back with
  | case1 rest ih => exact Nat.le_succ_of_le ih
  | case2 rest ih => exact Nat.le_succ_of_le ih
  | case3 rest => exact Nat.le_refl _

theorem length_le_of_upToStem? (h : upToStem? path = some kept) :
    kept.length ≤ (stripBack path.toList.reverse).length := by
  simp only [upToStem?] at h
  split at h
  · cases h
    have hsplit := congrArg List.length
      (List.takeWhile_append_dropWhile (p := (· != '/')) (l := stripBack path.toList.reverse))
    have hstem := (splitName_fst_begins (splitLast path.toList).2).length_le
    simp only [splitLast, List.length_reverse, List.length_append] at hstem hsplit
    simp only [String.length_ofList, splitLast, List.length_append, List.length_reverse]
    omega
  · exact nomatch h

theorem length_cutExtension_le (path : String) : (cutExtension path).length ≤ path.length := by
  unfold cutExtension
  split
  · rw [String.length_ofList, List.length_take, String.length_toList]
    exact Nat.min_le_right _ _
  · exact Nat.le_refl _

/-- Where the end of a path counts for nothing, something of it is lost. -/
theorem length_withExtension_lt (h : (stripBack path.toList.reverse).length < path.length) :
    (withExtension path extension).length < path.length + 1 + extension.length := by
  have hset : ∀ cut : String, cut = path ∨ cut.length < path.length →
      (setExtension cut extension).length < path.length + 1 + extension.length := by
    intro cut hcut
    have hshort : cut.length ≤ path.length := by
      rcases hcut with rfl | hlt
      · exact Nat.le_refl _
      · exact Nat.le_of_lt hlt
    unfold setExtension
    split
    · next kept hkept =>
        have hle := length_le_of_upToStem? hkept
        have hkept : kept.length < path.length := by
          rcases hcut with rfl | hlt
          · omega
          · have hstrip := length_stripBack_le cut.toList.reverse
            rw [List.length_reverse, String.length_toList] at hstrip
            omega
        split
        · omega
        · simp only [String.length_append]
          have hdot : ".".length = 1 := rfl
          omega
    · omega
  refine hset (cutExtension path) ?_
  unfold cutExtension
  split
  · next old _ =>
      by_cases hzero : old.length = 0
      · left
        rw [hzero, Nat.sub_zero, ← String.length_toList, List.take_length, String.ofList_toList]
      · by_cases hpath : path.length = 0
        · omega
        · right
          rw [String.length_ofList, List.length_take, String.length_toList]
          omega
  · exact .inl rfl

end Length

section Join

/-- The text in front of a name in a directory. -/
def front (dir : String) : List Char :=
  if dir.isEmpty || dir.toList.getLast? == some '/' then dir.toList else dir.toList ++ ['/']

theorem isFront_front (dir : String) : IsFront (front dir) := by
  unfold front
  split
  · next h =>
      rcases Bool.or_eq_true_iff.mp h with hempty | hlast
      · intro c hc
        rw [String.isEmpty_iff.mp hempty] at hc
        exact nomatch hc
      · intro c hc
        rw [eq_of_beq hlast] at hc
        exact (Option.some.inj hc).symm
  · intro c hc
    rw [List.getLast?_concat] at hc
    exact (Option.some.inj hc).symm

theorem join_eq {name : List Char} (h : '/' ∉ name) (dir : String) :
    join dir (String.ofList name) = String.ofList (front dir ++ name) := by
  have hrelative : isAbsolute (String.ofList name) = false := by
    cases name with
    | nil => rfl
    | cons c name =>
        have hc : c ≠ '/' := by
          rintro rfl
          exact h List.mem_cons_self
        simpa [isAbsolute] using hc
  rw [join, hrelative, front]
  split
  · exact nomatch ‹false = true›
  · split
    · rw [String.ofList_append, String.ofList_toList]
    · rw [String.ofList_append, String.ofList_append, String.ofList_toList]

theorem join_inj {dir a b : String} (ha : '/' ∉ a.toList) (hb : '/' ∉ b.toList) :
    join dir a = join dir b ↔ a = b := by
  refine ⟨fun h => ?_, fun h => by rw [h]⟩
  rw [← String.ofList_toList (s := a), ← String.ofList_toList (s := b), join_eq ha, join_eq hb] at h
  have hlists := congrArg String.toList h
  rw [String.toList_ofList, String.toList_ofList] at hlists
  exact String.toList_inj.mp (List.append_cancel_left hlists)

end Join

end RecordFlow.Path
