/-
# Where results are written

The result for a script goes to the directory of results, under the stem of the script. The
extension does not go behind that stem but in the place of one that the stem may have itself. So the
result for `a.b.sift` is written to `a.ts`, where the result for `a.sift` is written as well. A
script is written under its whole stem exactly if the stem has no dot behind its first character and
is not a dot. Stems of dots are led out of the directory: two dots name the directory above it, and
one dot the directory itself, which then gets the extension.
-/

import RecordFlow.Proofs.File.Extension
import RecordFlow.Settings

namespace RecordFlow

namespace Path

section Join

variable {dir stem kept extension : String}

/-- What has a stem is neither empty nor made of one or two dots. -/
theorem ne_of_stem? (h : stem? stem = some kept) : stem ≠ "" ∧ stem ≠ "." ∧ stem ≠ ".." := by
  have hnone : stem? "" = none ∧ stem? "." = none ∧ stem? ".." = none := by decide
  refine ⟨?_, ?_, ?_⟩
  · rintro rfl
    exact nomatch hnone.1.symm.trans h
  · rintro rfl
    exact nomatch hnone.2.1.symm.trans h
  · rintro rfl
    exact nomatch hnone.2.2.symm.trans h

theorem isComponent_toList (hslash : '/' ∉ stem.toList) (hne : stem ≠ "") (hdot : stem ≠ ".") :
    IsComponent stem.toList where
  slash_not_mem := hslash
  ne_nil hnil := hne (String.toList_eq_nil_iff.mp hnil)
  ne_dot heq := hdot (String.toList_inj.mp heq)

theorem slash_not_mem_append (hstem : '/' ∉ stem.toList) (hextension : '/' ∉ extension.toList) :
    '/' ∉ (stem ++ "." ++ extension).toList := by
  have hdot : ".".toList = ['.'] := rfl
  simp [hdot, hstem, hextension]

theorem join_append (hstem : '/' ∉ stem.toList) (hextension : '/' ∉ extension.toList)
    (dir : String) : join dir (stem ++ "." ++ extension) = join dir stem ++ "." ++ extension := by
  rw [← String.ofList_toList (s := stem ++ "." ++ extension),
    join_eq (slash_not_mem_append hstem hextension), ← String.ofList_toList (s := stem),
    join_eq hstem]
  simp [String.ofList_append, String.append_assoc]

/-- In a directory, an extension goes behind the stem of a name. -/
theorem withExtension_join (hslash : '/' ∉ stem.toList) (hkept : stem? stem = some kept)
    (hdot : kept ≠ ".") (hextension : extension ≠ "") :
    withExtension (join dir stem) extension = join dir kept ++ "." ++ extension := by
  obtain ⟨hne, hone, htwo⟩ := ne_of_stem? hkept
  have hcomponent := isComponent_toList hslash hne hone
  have hkeptSlash := (of_stem?_eq_some hkept).2
  rw [← String.ofList_toList (s := kept), join_eq hkeptSlash, ← String.ofList_toList (s := stem),
    join_eq hslash]
  have hname : isName stem.toList :=
    hcomponent.isName_iff.mpr fun heq => htwo (String.toList_inj.mp heq)
  rw [← String.ofList_toList (s := stem), stem?_ofList hcomponent hname] at hkept
  have hkept : kept.toList = (splitName stem.toList).1 := by
    rw [← Option.some.inj hkept, String.toList_ofList]
  rw [hkept]
  rcases dotless_or_append stem.toList with hdotless | ⟨init, rest, hinit, hrest, hsplit⟩
  · rw [splitName_of_dotless hdotless]
    exact withExtension_dotless (isFront_front dir) hcomponent hdotless hextension
  · rw [hsplit] at hcomponent hkept ⊢
    rw [splitName_append hinit hrest] at hkept ⊢
    have hkeptDot : init ≠ ['.'] := fun heq => hdot (String.toList_inj.mp (hkept.trans heq))
    exact withExtension_append (isFront_front dir) hcomponent hinit hkeptDot hrest hextension

/-- A dot that is the last component of a path gets no extension. -/
theorem length_withExtension_join_dot (dir extension : String) :
    (withExtension (join dir ".") extension).length <
      (join dir ".").length + 1 + extension.length := by
  have hjoin : join dir "." = String.ofList (front dir ++ ['.']) := join_eq (by decide) dir
  rw [hjoin]
  rcases List.eq_nil_or_concat (front dir) with hnil | ⟨init, last, hfront⟩
  · have hnone : extension? "." = none ∧ upToStem? "." = none := by decide
    have hstays : withExtension "." extension = "." := by
      simp only [withExtension, cutExtension, setExtension, hnone]
    rw [hnil, List.nil_append]
    change (withExtension "." extension).length < ".".length + 1 + extension.length
    rw [hstays]
    omega
  · have hlast : last = '/' := by
      refine isFront_front dir last ?_
      rw [hfront, List.concat_eq_append, List.getLast?_concat]
      rfl
    apply length_withExtension_lt
    have hback : (front dir ++ ['.']).reverse = '.' :: '/' :: init.reverse := by
      simp [hfront, hlast]
    have hlength := congrArg List.length hback
    rw [List.length_reverse, List.length_cons] at hlength
    rw [String.toList_ofList, hback, stripBack, String.length_ofList, hlength]
    exact Nat.lt_succ_of_le (length_stripBack_le ('/' :: init.reverse))

/-- A name with a dot behind its first character loses something to the extension. -/
theorem length_withExtension_join_lt (hslash : '/' ∉ stem.toList) (hdot : '.' ∈ stem.toList.tail)
    (hextension : extension ≠ "") :
    (withExtension (join dir stem) extension).length <
      (join dir stem).length + 1 + extension.length := by
  obtain ⟨init, rest, hinit, hrest, hsplit⟩ := (dotless_or_append stem.toList).resolve_left
    fun hdotless => hdotless hdot
  have hone : ".".length = 1 := rfl
  rw [← String.ofList_toList (s := stem), join_eq hslash]
  rw [hsplit] at hslash ⊢
  have hrestSlash : '/' ∉ rest := fun hmem =>
    hslash (List.mem_append_right init (List.mem_cons_of_mem '.' hmem))
  by_cases hdots : init = ['.']
  · rw [hdots, List.cons_append, List.nil_append,
      withExtension_dots (isFront_front dir) hrestSlash hrest]
    simp only [String.length_ofList, List.length_append, List.length_cons, List.length_nil]
    omega
  · have hcomponent : IsComponent (init ++ '.' :: rest) := by
      refine ⟨hslash, by simp, fun heq => hinit ?_⟩
      have hlength := congrArg List.length heq
      simp only [List.length_append, List.length_cons, List.length_nil] at hlength
      exact List.length_eq_zero_iff.mp (by omega)
    rw [withExtension_append (isFront_front dir) hcomponent hinit hdots hrest hextension]
    simp only [String.length_append, String.length_ofList, List.length_append, List.length_cons]
    omega

/-- In a directory, a name keeps all of itself in front of the extension if and only if it has no
dot behind its first character and is not a dot. -/
theorem withExtension_join_eq_iff (hne : stem ≠ "") (hslash : '/' ∉ stem.toList)
    (hextension : extension ≠ "") :
    withExtension (join dir stem) extension = join dir stem ++ "." ++ extension ↔
      '.' ∉ stem.toList.tail ∧ stem ≠ "." := by
  constructor
  · intro h
    have hlength := congrArg String.length h
    have hone : ".".length = 1 := rfl
    simp only [String.length_append, hone] at hlength
    constructor
    · intro hdot
      have hlt : (withExtension (join dir stem) extension).length < _ :=
        length_withExtension_join_lt hslash hdot hextension
      omega
    · rintro rfl
      have hlt := length_withExtension_join_dot dir extension
      omega
  · rintro ⟨hdotless, hdot⟩
    rw [← String.ofList_toList (s := stem), join_eq hslash]
    exact withExtension_dotless (isFront_front dir) (isComponent_toList hslash hne hdot) hdotless
      hextension

/-- A name with an extension does not become two dots behind a front: the front ends with the last
slash, and what is in front of the extension does not. -/
theorem append_extension_ne {init name rest : List Char} (hinit : ¬IsFront init)
    (hname : IsFront name) (hslash : '/' ∉ rest) (hrest : rest ≠ []) :
    init ++ '.' :: rest ≠ name ++ ['.', '.'] := by
  intro heq
  rcases List.append_eq_append_iff.mp heq with ⟨more, rfl, hmore⟩ | ⟨more, rfl, hmore⟩
  · rcases List.eq_nil_or_concat more with rfl | ⟨front, last, rfl⟩
    · exact hinit (by simpa using hname)
    · have hlast : last = '/' := by
        refine hname last ?_
        rw [List.concat_eq_append, ← List.append_assoc, List.getLast?_concat]
        rfl
      have hmem : '/' ∈ '.' :: rest := by simp [hmore, hlast]
      simp [hslash] at hmem
  · have hlength := congrArg List.length hmore
    have hpos := List.length_pos_iff.mpr hrest
    simp only [List.length_append, List.length_cons, List.length_nil] at hlength
    have hnil : more = [] := List.length_eq_zero_iff.mp (by omega)
    exact hinit (by simpa [hnil] using hname)

/-- A dot and two dots in a directory lead to different paths. -/
theorem withExtension_join_dot_ne (hextension : extension ≠ "") (hslash : '/' ∉ extension.toList)
    (dir : String) : withExtension (join dir ".") extension ≠ join dir ".." := by
  have hdot : join dir "." = String.ofList (front dir ++ ['.']) := join_eq (by decide) dir
  have hdots : join dir ".." = String.ofList (front dir ++ ['.', '.']) := join_eq (by decide) dir
  intro heq
  rw [withExtension, setExtension] at heq
  split at heq
  · next kept hkept =>
      rw [if_neg (by simpa using hextension), hdots] at heq
      have hlists := congrArg String.toList heq
      have hone : ".".toList = ['.'] := rfl
      simp only [String.toList_append, String.toList_ofList, hone, List.append_assoc] at hlists
      exact append_extension_ne (not_isFront_of_upToStem? hkept) (isFront_front dir) hslash
        (fun hnil => hextension (String.toList_eq_nil_iff.mp hnil)) hlists
  · have hlength := congrArg String.length heq
    have hle := length_cutExtension_le (join dir ".")
    rw [hdot] at hle hlength
    rw [hdots] at hlength
    simp only [String.length_ofList, List.length_append, List.length_cons, List.length_nil]
      at hle hlength
    omega

/-- A name with an extension is longer than two dots. -/
theorem join_append_ne_dots (hne : kept ≠ "") (hkept : '/' ∉ kept.toList)
    (hextension : extension ≠ "") (hslash : '/' ∉ extension.toList) (dir : String) :
    join dir (kept ++ "." ++ extension) ≠ join dir ".." := by
  intro heq
  have hlength := congrArg String.length
    ((join_inj (slash_not_mem_append hkept hslash) (by decide)).mp heq)
  have hpos := Nat.pos_of_ne_zero (mt String.length_eq_zero_iff.mp hne)
  have hextensionPos := Nat.pos_of_ne_zero (mt String.length_eq_zero_iff.mp hextension)
  have hone : ".".length = 1 := rfl
  have htwo : "..".length = 2 := rfl
  simp only [String.length_append, hone, htwo] at hlength
  omega

theorem join_append_ne_dot (hne : kept ≠ "") (hkept : '/' ∉ kept.toList)
    (hslash : '/' ∉ extension.toList) (dir : String) :
    join dir (kept ++ "." ++ extension) ≠ withExtension (join dir ".") extension := by
  intro heq
  have hlt := length_withExtension_join_dot dir extension
  have hpos := Nat.pos_of_ne_zero (mt String.length_eq_zero_iff.mp hne)
  have hone : ".".length = 1 := rfl
  rw [← heq, ← String.ofList_toList (s := kept ++ "." ++ extension),
    join_eq (slash_not_mem_append hkept hslash), join_eq (by decide : '/' ∉ ['.'])] at hlt
  simp only [String.length_ofList, List.length_append, String.length_toList,
    String.length_append, hone, List.length_cons, List.length_nil] at hlt
  omega

/-- What is left of a stem in front of an extension: the stem of the stem, or nothing of a stem that
is made of two dots and characters other than dots. A single dot is left as it is. -/
def kept? (stem : String) : Option String :=
  if stem = "." then some "." else (stem? stem).filter (· != ".")

theorem kept?_of_stem? (h : stem? stem = some kept) (hdot : kept ≠ ".") :
    kept? stem = some kept := by
  rw [kept?, if_neg (ne_of_stem? h).2.1, h]
  simp [hdot]

/-- The three kinds of stems. -/
theorem kept?_cases (hne : stem ≠ "") (hslash : '/' ∉ stem.toList) :
    stem = "." ∨ (∃ kept, stem? stem = some kept ∧ kept ≠ ".") ∨
      kept? stem = none ∧ ∃ rest, '.' ∉ rest ∧ stem.toList = '.' :: '.' :: rest := by
  by_cases hone : stem = "."
  · exact .inl hone
  have hcomponent := isComponent_toList hslash hne hone
  refine .inr ?_
  by_cases htwo : stem = ".."
  · subst htwo
    exact .inr ⟨by decide, [], by simp, rfl⟩
  have hname : isName stem.toList :=
    hcomponent.isName_iff.mpr fun heq => htwo (String.toList_inj.mp heq)
  have hstem := stem?_ofList hcomponent hname
  rw [String.ofList_toList] at hstem
  rcases dotless_or_append stem.toList with hdotless | ⟨init, rest, hinit, hrest, hsplit⟩
  · rw [splitName_of_dotless hdotless, String.ofList_toList] at hstem
    exact .inl ⟨stem, hstem, hone⟩
  · rw [hsplit, splitName_append hinit hrest] at hstem
    by_cases hdots : init = ['.']
    · have hnone : kept? stem = none := by
        rw [kept?, if_neg hone, hstem, hdots]
        rfl
      exact .inr ⟨hnone, rest, hrest, by rw [hsplit, hdots]; rfl⟩
    · exact .inl ⟨_, hstem, fun heq => hdots (by simpa using congrArg String.toList heq)⟩

/-- In a directory, a name of two dots and no other becomes these dots. -/
theorem withExtension_join_dots {rest : List Char} (hslash : '/' ∉ stem.toList)
    (hsplit : stem.toList = '.' :: '.' :: rest) (hrest : '.' ∉ rest) :
    withExtension (join dir stem) extension = join dir ".." := by
  have hrestSlash : '/' ∉ rest := fun hmem => hslash (by simp [hsplit, hmem])
  have hdots : join dir ".." = String.ofList (front dir ++ ['.', '.']) := join_eq (by decide) dir
  rw [← String.ofList_toList (s := stem), join_eq hslash, hsplit, hdots]
  exact withExtension_dots (isFront_front dir) hrestSlash hrest

/-- Where an extension goes in a directory is decided by what is left of the stem. -/
theorem withExtension_join_cases (hne : stem ≠ "") (hslash : '/' ∉ stem.toList)
    (hextension : extension ≠ "") (hextensionSlash : '/' ∉ extension.toList) (dir : String) :
    (kept? stem = some "." ∧
      withExtension (join dir stem) extension = withExtension (join dir ".") extension) ∨
    (∃ kept, kept? stem = some kept ∧ kept ≠ "." ∧ kept ≠ "" ∧ '/' ∉ kept.toList ∧
      withExtension (join dir stem) extension = join dir (kept ++ "." ++ extension)) ∨
    (kept? stem = none ∧ withExtension (join dir stem) extension = join dir "..") := by
  rcases kept?_cases hne hslash with rfl | ⟨kept, hkept, hdot⟩ | ⟨hnone, rest, hrest, hsplit⟩
  · exact .inl ⟨by decide, rfl⟩
  · obtain ⟨hkeptNe, hkeptSlash⟩ := of_stem?_eq_some hkept
    refine .inr (.inl ⟨kept, kept?_of_stem? hkept hdot, hdot, hkeptNe, hkeptSlash, ?_⟩)
    rw [withExtension_join hslash hkept hdot hextension, join_append hkeptSlash hextensionSlash]
  · exact .inr (.inr ⟨hnone, withExtension_join_dots hslash hsplit hrest⟩)

/-- In a directory, two names are led to one path by an extension if and only if the same is left of
both. -/
theorem withExtension_join_eq_iff_kept? {stem₁ stem₂ : String} (hne₁ : stem₁ ≠ "")
    (hslash₁ : '/' ∉ stem₁.toList) (hne₂ : stem₂ ≠ "") (hslash₂ : '/' ∉ stem₂.toList)
    (hextension : extension ≠ "") (hslash : '/' ∉ extension.toList) :
    withExtension (join dir stem₁) extension = withExtension (join dir stem₂) extension ↔
      kept? stem₁ = kept? stem₂ := by
  have hdot := withExtension_join_dot_ne hextension hslash dir
  rcases withExtension_join_cases hne₁ hslash₁ hextension hslash dir with
    ⟨hkept₁, hpath₁⟩ | ⟨kept₁, hkept₁, hdot₁, hkeptNe₁, hkeptSlash₁, hpath₁⟩ | ⟨hkept₁, hpath₁⟩
  all_goals
    rcases withExtension_join_cases hne₂ hslash₂ hextension hslash dir with
      ⟨hkept₂, hpath₂⟩ | ⟨kept₂, hkept₂, hdot₂, hkeptNe₂, hkeptSlash₂, hpath₂⟩ | ⟨hkept₂, hpath₂⟩
    all_goals rw [hkept₁, hkept₂, hpath₁, hpath₂]
  · exact iff_of_true rfl rfl
  · exact iff_of_false (join_append_ne_dot hkeptNe₂ hkeptSlash₂ hslash dir).symm
      (by simpa using hdot₂.symm)
  · exact iff_of_false hdot nofun
  · exact iff_of_false (join_append_ne_dot hkeptNe₁ hkeptSlash₁ hslash dir) (by simpa using hdot₁)
  · rw [join_inj (slash_not_mem_append hkeptSlash₁ hslash)
      (slash_not_mem_append hkeptSlash₂ hslash), String.append_left_inj, String.append_left_inj,
      Option.some.injEq]
  · exact iff_of_false (join_append_ne_dots hkeptNe₁ hkeptSlash₁ hextension hslash dir) nofun
  · exact iff_of_false hdot.symm nofun
  · exact iff_of_false (join_append_ne_dots hkeptNe₂ hkeptSlash₂ hextension hslash dir).symm nofun
  · exact iff_of_true rfl rfl

end Join

end Path

namespace Settings

variable {settings : Settings} {dir script stem : String}

/-- With a directory for results, every script with a stem has a path for its result. -/
theorem outputPath_eq (hdir : settings.outputDir? = some dir)
    (hslash : '/' ∉ settings.extension.toList) (hstem : Path.stem? script = some stem) :
    settings.outputPath script =
      .ok (some (Path.withExtension (Path.join dir stem) settings.extension)) := by
  have hcontains : settings.extension.contains '/' = false := by
    simpa [String.contains_char_eq] using hslash
  simp [outputPath, hdir, hstem, hcontains]

end Settings

/-- Let results go to a directory, with an extension that is not empty and holds no slash. Every
script with a stem has a path for its result. That path is the directory joined with the stem, a dot
and the extension, if and only if the stem has no dot behind its first character and is not a dot.
Any other stem is cut down to its own stem first, if it has one that is not a dot. A stem of two
dots in front and no other becomes `..` and gets no extension, and a single dot counts for nothing,
so that the directory itself gets the extension. Two scripts are written to one path if and only if
the same is left of their stems. -/
theorem output_path_of_stem (settings : Settings) (dir : String)
    (hdir : settings.outputDir? = some dir) (hextension : settings.extension ≠ "")
    (hslash : '/' ∉ settings.extension.toList) :
    (∀ script stem, Path.stem? script = some stem →
      ∃ path, settings.outputPath script = .ok (some path) ∧
        (path = Path.join dir (stem ++ "." ++ settings.extension) ↔
          '.' ∉ stem.toList.tail ∧ stem ≠ ".")) ∧
      (∀ script stem kept, Path.stem? script = some stem → Path.stem? stem = some kept →
        kept ≠ "." → settings.outputPath script =
          .ok (some (Path.join dir (kept ++ "." ++ settings.extension)))) ∧
      (∀ script stem rest, Path.stem? script = some stem → stem.toList = '.' :: '.' :: rest →
        '.' ∉ rest → settings.outputPath script = .ok (some (Path.join dir ".."))) ∧
      (∀ script, Path.stem? script = some "." → settings.outputPath script =
        .ok (some (Path.withExtension (Path.join dir ".") settings.extension))) ∧
      ∀ script₁ script₂ stem₁ stem₂,
        Path.stem? script₁ = some stem₁ → Path.stem? script₂ = some stem₂ →
        (settings.outputPath script₁ = settings.outputPath script₂ ↔
          Path.kept? stem₁ = Path.kept? stem₂) := by
  refine ⟨fun script stem hstem => ?_, fun script stem kept hstem hkept hdot => ?_,
    fun script stem rest hstem hdots hrest => ?_,
    fun script hstem => Settings.outputPath_eq hdir hslash hstem,
    fun script₁ script₂ stem₁ stem₂ hstem₁ hstem₂ => ?_⟩
  · obtain ⟨hne, hstemSlash⟩ := Path.of_stem?_eq_some hstem
    refine ⟨_, Settings.outputPath_eq hdir hslash hstem, ?_⟩
    rw [Path.join_append hstemSlash hslash]
    exact Path.withExtension_join_eq_iff hne hstemSlash hextension
  · rw [Settings.outputPath_eq hdir hslash hstem,
      Path.withExtension_join (Path.of_stem?_eq_some hstem).2 hkept hdot hextension,
      Path.join_append (Path.of_stem?_eq_some hkept).2 hslash]
  · rw [Settings.outputPath_eq hdir hslash hstem,
      Path.withExtension_join_dots (Path.of_stem?_eq_some hstem).2 hdots hrest]
  · obtain ⟨hne₁, hslash₁⟩ := Path.of_stem?_eq_some hstem₁
    obtain ⟨hne₂, hslash₂⟩ := Path.of_stem?_eq_some hstem₂
    rw [Settings.outputPath_eq hdir hslash hstem₁, Settings.outputPath_eq hdir hslash hstem₂,
      Except.ok.injEq, Option.some.injEq]
    exact Path.withExtension_join_eq_iff_kept? hne₁ hslash₁ hne₂ hslash₂ hextension hslash

/-- A script is written under its stem, and so is another one whose stem goes on behind a dot. Two
dots in front of a stem leave the directory above, and one dot alone the directory itself. -/
theorem output_path_of_stem_dotted :
    let settings : Settings := ⟨none, "ts", some "out"⟩
    Path.stem? "jobs/people.sift" = some "people" ∧
      Path.stem? "people.old.sift" = some "people.old" ∧
      Path.stem? "..x.sift" = some "..x" ∧ Path.stem? "..sift" = some "." ∧
      settings.outputPath "jobs/people.sift" = .ok (some "out/people.ts") ∧
      settings.outputPath "people.old.sift" = settings.outputPath "jobs/people.sift" ∧
      settings.outputPath "..x.sift" = .ok (some "out/..") ∧
      settings.outputPath "..sift" = .ok (some "out.ts") ∧
      settings.outputPath "..x.sift" ≠ settings.outputPath "..sift" := by
  intro settings
  obtain ⟨hwhole, -, hdots, hdot, hsame⟩ :=
    output_path_of_stem settings "out" rfl (by decide) (by decide)
  have hplain : Path.stem? "jobs/people.sift" = some "people" := by decide
  have hdotted : Path.stem? "people.old.sift" = some "people.old" := by decide
  have htwo : Path.stem? "..x.sift" = some "..x" := by decide
  have hone : Path.stem? "..sift" = some "." := by decide
  have hjoin : Path.join "out" ("people" ++ "." ++ "ts") = "out/people.ts" ∧
      Path.join "out" ".." = "out/.." ∧
      Path.withExtension (Path.join "out" ".") "ts" = "out.ts" := by decide
  refine ⟨hplain, hdotted, htwo, hone, ?_, ?_, ?_, ?_, ?_⟩
  · obtain ⟨path, houtput, hpath⟩ := hwhole _ _ hplain
    rw [houtput, hpath.mpr (by decide), hjoin.1]
  · exact (hsame _ _ _ _ hdotted hplain).mpr (by decide)
  · rw [hdots _ _ ['x'] htwo rfl (by decide), hjoin.2.1]
  · rw [hdot _ hone, hjoin.2.2]
  · rw [Ne, hsame _ _ _ _ htwo hone]
    decide

/-- The result for `a.b.sift` is not written under its stem, and a script with another stem is
written to the same path. -/
theorem output_path_drops_dotted_end :
    let settings : Settings := ⟨none, "ts", some "out"⟩
    Path.stem? "a.b.sift" = some "a.b" ∧ Path.stem? "a.c.sift" = some "a.c" ∧
      settings.outputPath "a.b.sift" = .ok (some "out/a.ts") ∧
      settings.outputPath "a.c.sift" = .ok (some "out/a.ts") ∧
      Path.join "out" "a.b.ts" ≠ "out/a.ts" := by
  intro settings
  have hb : Path.stem? "a.b.sift" = some "a.b" := by decide
  have hc : Path.stem? "a.c.sift" = some "a.c" := by decide
  have hpath : Path.withExtension (Path.join "out" "a.b") "ts" = "out/a.ts" ∧
      Path.withExtension (Path.join "out" "a.c") "ts" = "out/a.ts" := by decide
  refine ⟨hb, hc, ?_, ?_, by decide⟩
  · rw [Settings.outputPath_eq rfl (by decide) hb, hpath.1]
  · rw [Settings.outputPath_eq rfl (by decide) hc, hpath.2]

end RecordFlow
