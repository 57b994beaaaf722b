import Mathlib.Data.List.Nodup
import Mathlib.Data.List.Perm.Basic
import Propositional.Command.Arguments
import Propositional.Text.Blank

/-! Settings as they are typed.

A setting is typed by one of its names or by a word that begins one long name only
(`Setting.NamedBy`); its value is the next argument or stands behind an equals sign (`Typed`). Each
setting that is typed in full has its own effect on the options and none on the arguments behind it
(`TypedAll.read`), and arguments without a dash are formulas. So a group of formulas with settings
in front of it and behind it is read as the options that the settings choose, with these formulas
(`ofArguments_group`). -/
namespace Propositional.Command

/-! ### Names -/

/-- The word is a name of the setting, or begins a long name of it and no other name. -/
def Setting.NamedBy (s : Setting) (word : Text) : Prop :=
  (word, s) ∈ names ∨ ∃ name, (name, s) ∈ names ∧ ['-', '-'] <+: word ∧ word <+: name ∧
    ∀ n ∈ names, word <+: n.1 → n = (name, s)

namespace Setting

variable {s : Setting} {word : Text}

theorem named?_of_mem : ∀ n ∈ names, named? n.1 = some n.2 := by decide

theorem mem_of_named? (h : named? word = some s) : (word, s) ∈ names := by
  obtain ⟨⟨name, s'⟩, hfind, rfl⟩ := Option.map_eq_some_iff.mp h
  have hname := List.find?_some hfind
  obtain rfl : name = word := eq_of_beq hname
  exact List.mem_of_find?_eq_some hfind

/-- There is no equals sign in a name. -/
theorem not_mem_of_namedBy (h : s.NamedBy word) : '=' ∉ word := by
  have hnames : ∀ n ∈ names, '=' ∉ n.1 := by decide
  rcases h with hmem | ⟨name, hmem, -, hbegins, -⟩
  · exact hnames _ hmem
  · exact fun hword => hnames _ hmem (hbegins.subset hword)

/-- The names that a word begins, if it begins one only. -/
theorem filter_eq_singleton {name : Text} (hmem : (name, s) ∈ names) (hbegins : word <+: name)
    (hunique : ∀ n ∈ names, word <+: n.1 → n = (name, s)) :
    (names.filter fun n => word.isPrefixOf n.1) = [(name, s)] := by
  have hnodup : names.Nodup := by decide
  refine List.perm_singleton.mp ((List.perm_ext_iff_of_nodup (hnodup.filter _) ?_).mpr fun n => ?_)
  · exact List.nodup_singleton _
  · rw [List.mem_filter, List.mem_singleton, List.isPrefixOf_iff_prefix]
    constructor
    · exact fun h => hunique n h.1 h.2
    · rintro rfl
      exact ⟨hmem, hbegins⟩

end Setting

/-! ### Classifying single arguments -/

variable {s : Setting} {word t : Text} {value : Option Text}

theorem bne_of_not_mem {c : Char} {t : Text} (h : c ∉ t) : ∀ x ∈ t, (x != c) = true := by
  intro x hx
  have hne : x ≠ c := fun he => h (he ▸ hx)
  simpa using hne

theorem cutAt_of_not_mem {c : Char} {t : Text} (h : c ∉ t) : Text.cutAt c t = (t, none) := by
  have hall : t.all (· != c) = true := List.all_eq_true.mpr (bne_of_not_mem h)
  rw [Text.cutAt, Text.dropWhile_eq_nil_of_all hall]

theorem cutAt_append {c : Char} {t : Text} (h : c ∉ t) (rest : Text) :
    Text.cutAt c (t ++ c :: rest) = (t, some rest) := by
  rw [Text.cutAt, List.dropWhile_append_of_pos (bne_of_not_mem h),
    List.takeWhile_append_of_pos (bne_of_not_mem h)]
  simp

/-- A word with two dashes that names a setting, with what stands behind an equals sign. -/
theorem classifyWord_of_namedBy (h : s.NamedBy word)
    (hcut : Text.cutAt '=' t = (word, value)) :
    classifyWord t = .ok (.naming (namedByWord s value)) := by
  rw [classifyWord, hcut]
  dsimp only
  cases hnamed : Setting.named? word with
  | some s' =>
    dsimp only
    have hmem := Setting.mem_of_named? hnamed
    have hs : s' = s := by
      rcases h with hword | ⟨name, -, -, -, hunique⟩
      · exact Option.some.inj (hnamed.symm.trans (Setting.named?_of_mem _ hword))
      · exact congrArg Prod.snd (hunique _ hmem (List.prefix_refl word))
    rw [hs]
  | none =>
    rcases h with hword | ⟨name, hmem, -, hbegins, hunique⟩
    · cases hnamed.symm.trans (Setting.named?_of_mem _ hword)
    · rw [Setting.filter_eq_singleton hmem hbegins hunique]

theorem classify_of_dashes (hlong : ['-', '-'] <+: t) : classify t = classifyWord t := by
  obtain ⟨rest, rfl⟩ := hlong
  rfl

/-- A full name is known, be it long or short. -/
theorem classify_of_mem (h : (word, s) ∈ Setting.names) :
    classify word = .ok (.naming (.ok (.single s))) := by
  have hnames : Setting.names.map (fun n => classify n.1) =
      Setting.names.map fun n => .ok (.naming (.ok (.single n.2))) := rfl
  exact List.map_inj_left.mp hnames (word, s) h

/-- An argument that names a setting and says no more. -/
theorem classify_of_namedBy (h : s.NamedBy word) :
    classify word = .ok (.naming (.ok (.single s))) := by
  by_cases hlong : ['-', '-'] <+: word
  · rw [classify_of_dashes hlong, classifyWord_of_namedBy h
      (cutAt_of_not_mem (Setting.not_mem_of_namedBy h))]
    rfl
  · rcases h with hmem | ⟨-, -, hbegins, -⟩
    · exact classify_of_mem hmem
    · exact absurd hbegins hlong

theorem classify_attached (h : s.NamedBy word) (hlong : ['-', '-'] <+: word)
    (hvalue : s.takesValue = true) (behind : Text) :
    classify (word ++ '=' :: behind) = .ok (.naming (.ok (.withValue s behind))) := by
  rw [classify_of_dashes (hlong.trans (List.prefix_append _ _)), classifyWord_of_namedBy h
    (cutAt_append (Setting.not_mem_of_namedBy h) behind), namedByWord]
  simp only [if_pos hvalue]

theorem classify_of_head? (h : t.head? ≠ some '-') : classify t = .ok (.plain t) := by
  unfold classify
  split
  · exact absurd rfl h
  · exact absurd rfl h
  · rfl

/-- A double dash begins several names. -/
theorem ne_doubleDash_of_classify {a : Argument} (h : classify t = .ok a) : t ≠ ['-', '-'] := by
  rintro rfl
  cases h

theorem classifyAll_cons {a : Argument} (h : classify t = .ok a) (rest : List Text) :
    classifyAll (t :: rest) = (a :: ·) <$> classifyAll rest := by
  rw [classifyAll, if_neg (ne_doubleDash_of_classify h), h]
  cases classifyAll rest <;> rfl

theorem classifyAll_texts {texts : List Text} (h : ∀ t ∈ texts, t.head? ≠ some '-')
    (rest : List Text) :
    classifyAll (texts ++ rest) = (texts.map .plain ++ ·) <$> classifyAll rest := by
  induction texts with
  | nil => exact (id_map _).symm
  | cons t texts ih =>
    rw [List.forall_mem_cons] at h
    rw [List.cons_append, classifyAll_cons (classify_of_head? h.1), ih h.2]
    cases classifyAll rest <;> rfl

/-! ### Settings typed in full -/

/-- A setting with its value, typed in arguments that hold nothing else. -/
inductive Typed : Chosen → List Text → Prop
  | flag {s : Setting} {word : Text} (named : s.NamedBy word) (flag : s.takesValue = false) :
    Typed (s, none) [word]
  | apart {s : Setting} {word value : Text} (named : s.NamedBy word)
    (takes : s.takesValue = true) (plain : value.head? ≠ some '-') :
    Typed (s, some value) [word, value]
  | attached {s : Setting} {word value : Text} (named : s.NamedBy word)
    (long : ['-', '-'] <+: word) (takes : s.takesValue = true) :
    Typed (s, if value = ['-', '-'] then none else some value) [word ++ '=' :: value]

/-- Settings typed one behind the other. -/
inductive TypedAll : List Chosen → List Text → Prop
  | nil : TypedAll [] []
  | cons {c : Chosen} {words : List Text} {chosen : List Chosen} {more : List Text} :
    Typed c words → TypedAll chosen more → TypedAll (c :: chosen) (words ++ more)

variable {c : Chosen} {words : List Text} {chosen : List Chosen}

theorem Gathered.apply_single (g : Gathered) (c : Chosen) :
    g.apply [c] = (applySetting g.options c).map fun o => { g with options := o } := by
  rw [Gathered.apply, List.foldlM_cons]
  cases applySetting g.options c <;> rfl

/-- What the arguments of one setting do. -/
theorem Typed.read (h : Typed c words) :
    ∃ arguments, (∀ rest, classifyAll (words ++ rest) = (arguments ++ ·) <$> classifyAll rest) ∧
      ∀ rest g, gather (arguments ++ rest) g = g.endGroup.apply [c] >>= gather rest := by
  cases h with
  | @flag s word named flag =>
    have hclass : classify word = .ok (.naming (.ok ⟨[(s, none)], none⟩)) := by
      rw [classify_of_namedBy named, Named.single, flag]
      rfl
    exact ⟨[_], fun rest => classifyAll_cons hclass rest, fun _ _ => rfl⟩
  | @apart s word value named takes plain =>
    have hclass : classify word = .ok (.naming (.ok ⟨[], some s⟩)) := by
      rw [classify_of_namedBy named, Named.single, takes]
      rfl
    refine ⟨[.naming (.ok ⟨[], some s⟩), .plain value], fun rest => ?_, fun _ _ => rfl⟩
    show classifyAll (word :: value :: rest) = _
    rw [classifyAll_cons hclass, classifyAll_cons (classify_of_head? plain)]
    cases classifyAll rest <;> rfl
  | @attached s word value named long takes =>
    have hclass := classify_attached named long takes value
    exact ⟨[_], fun rest => classifyAll_cons hclass rest, fun _ _ => rfl⟩

/-- Typed settings take effect one after the other. -/
theorem TypedAll.read (h : TypedAll chosen words) :
    ∃ arguments, (∀ rest, classifyAll (words ++ rest) = (arguments ++ ·) <$> classifyAll rest) ∧
      ∀ rest g, gather (arguments ++ rest) g =
        chosen.foldlM (fun g c => g.endGroup.apply [c]) g >>= gather rest := by
  induction h with
  | nil => exact ⟨[], fun _ => (id_map _).symm, fun _ _ => rfl⟩
  | cons typed _ ih =>
    obtain ⟨first, hclass, hgather⟩ := typed.read
    obtain ⟨others, hclasses, hgathers⟩ := ih
    refine ⟨first ++ others, fun rest => ?_, fun rest g => ?_⟩
    · rw [List.append_assoc, hclass, hclasses]
      cases classifyAll rest with
      | error e => rfl
      | ok arguments => exact congrArg Except.ok (List.append_assoc _ _ _).symm
    · rw [List.append_assoc, hgather, List.foldlM_cons, bind_assoc]
      exact bind_congr fun g => hgathers rest g

/-! ### A group of formulas -/

/-- A setting does not ask which formulas there are. -/
theorem applySetting_withFormulas (o : Options) (texts : List Text) (c : Chosen) :
    applySetting { o with formulas := texts } c =
      (applySetting o c).map fun o => { o with formulas := texts } := by
  obtain ⟨s, value⟩ := c
  cases s
  case format =>
    cases value with
    | none => rfl
    | some value =>
      simp only [applySetting]
      split
      · rfl
      · split <;> rfl
  all_goals cases value <;> rfl

/-- What no setting of a list asks about is not changed by all of them together. -/
theorem foldlM_commutes {f : Options → Options} {chosen : List Chosen}
    (h : ∀ c ∈ chosen, ∀ o, applySetting (f o) c = (applySetting o c).map f) (o : Options) :
    chosen.foldlM applySetting (f o) = (chosen.foldlM applySetting o).map f := by
  induction chosen generalizing o with
  | nil => rfl
  | cons c chosen ih =>
    rw [List.forall_mem_cons] at h
    rw [List.foldlM_cons, List.foldlM_cons, h.1]
    cases applySetting o c with
    | error e => rfl
    | ok o => exact ih h.2 o

theorem foldlM_withFormulas (o : Options) (texts : List Text) (chosen : List Chosen) :
    chosen.foldlM applySetting { o with formulas := texts } =
      (chosen.foldlM applySetting o).map fun o => { o with formulas := texts } :=
  foldlM_commutes (fun c _ o => applySetting_withFormulas o texts c) o

namespace Gathered

variable {g : Gathered}

theorem endGroup_of_ne (h : g.group ≠ .running) : g.endGroup = g := if_neg h

theorem endGroup_ne_running (g : Gathered) : g.endGroup.group ≠ .running := by
  rw [endGroup]
  split
  · nofun
  · assumption

theorem options_endGroup (g : Gathered) : g.endGroup.options = g.options := by
  rw [endGroup]
  split <;> rfl

theorem leftOver_endGroup (g : Gathered) : g.endGroup.leftOver = g.leftOver := by
  rw [endGroup]
  split <;> rfl

/-- What the gathered arguments come to. -/
def finish (g : Gathered) : Except Stop Options :=
  if g.leftOver.isEmpty then .ok g.options else .error (.usage (.unrecognized g.leftOver))

theorem finish_of_leftOver (h : g.leftOver = []) (o : Options) :
    finish { g with options := o } = .ok o := by
  rw [finish, h]
  rfl

end Gathered

/-- Where no group is running, settings change the options only. -/
theorem foldlM_settings {g : Gathered} (h : g.group ≠ .running) (chosen : List Chosen) :
    chosen.foldlM (fun g c => g.endGroup.apply [c]) g =
      (chosen.foldlM applySetting g.options).map fun o => { g with options := o } := by
  induction chosen generalizing g with
  | nil => rfl
  | cons c chosen ih =>
    rw [List.foldlM_cons, List.foldlM_cons, Gathered.endGroup_of_ne h, Gathered.apply_single]
    cases applySetting g.options c with
    | error e => rfl
    | ok o => exact ih h

/-- Settings behind everything else change the options only, also if they end a group. -/
theorem finish_settings {g : Gathered} (h : g.leftOver = []) (chosen : List Chosen) :
    chosen.foldlM (fun g c => g.endGroup.apply [c]) g >>= Gathered.finish =
      chosen.foldlM applySetting g.options := by
  cases chosen with
  | nil => exact Gathered.finish_of_leftOver h g.options
  | cons c chosen =>
    -- the first setting ends the group, and where none is running any more nothing else happens
    have hended : (c :: chosen).foldlM (fun g c => g.endGroup.apply [c]) g =
        (c :: chosen).foldlM (fun g c => g.endGroup.apply [c]) g.endGroup := by
      rw [List.foldlM_cons, List.foldlM_cons, Gathered.endGroup_of_ne g.endGroup_ne_running]
    rw [hended, foldlM_settings g.endGroup_ne_running, g.options_endGroup]
    cases (c :: chosen).foldlM applySetting g.options with
    | error e => rfl
    | ok o => exact Gathered.finish_of_leftOver (g.leftOver_endGroup.trans h) o

/-- Plain arguments are added to a group that is not over. -/
theorem gather_texts {g : Gathered} (h : g.group ≠ .over) (texts : List Text) :
    ∃ group, group ≠ .over ∧ ∀ rest, gather (texts.map .plain ++ rest) g = gather rest
      ⟨{ g.options with formulas := g.options.formulas ++ texts }, group, g.leftOver⟩ := by
  induction texts generalizing g with
  | nil => exact ⟨g.group, h, fun rest => by rw [List.append_nil]; rfl⟩
  | cons t texts ih =>
    have hadd : g.addPlain t =
        ⟨{ g.options with formulas := g.options.formulas ++ [t] }, .running, g.leftOver⟩ := if_neg h
    obtain ⟨group, hgroup, hgather⟩ := ih (g := g.addPlain t) (by rw [hadd]; nofun)
    refine ⟨group, hgroup, fun rest => ?_⟩
    rw [List.map_cons, List.cons_append, gather, hgather, hadd, List.append_assoc]
    rfl

/-- A group of formulas between settings is read as what the settings choose, with the formulas. -/
theorem ofArguments_group {chosen₁ chosen₂ : List Chosen} {before texts after : List Text}
    (hbefore : TypedAll chosen₁ before) (htexts : ∀ t ∈ texts, t.head? ≠ some '-')
    (hafter : TypedAll chosen₂ after) :
    Options.ofArguments (before ++ texts ++ after) =
      ((chosen₁ ++ chosen₂).foldlM applySetting {}).map fun o => { o with formulas := texts } := by
  obtain ⟨arguments₁, hclass₁, hgather₁⟩ := hbefore.read
  obtain ⟨arguments₂, hclass₂, hgather₂⟩ := hafter.read
  have hclass : classifyAll (before ++ texts ++ after) =
      .ok (arguments₁ ++ (texts.map .plain ++ arguments₂)) := by
    have hlast : classifyAll after = .ok arguments₂ := by
      have hclass := hclass₂ []
      rw [List.append_nil] at hclass
      exact hclass.trans (congrArg Except.ok (List.append_nil _))
    rw [List.append_assoc, hclass₁, classifyAll_texts htexts, hlast]
    rfl
  rw [Options.ofArguments, hclass]
  show gather (arguments₁ ++ _) .start >>= Gathered.finish = _
  rw [hgather₁, foldlM_settings (g := .start) nofun, List.foldlM_append]
  show Except.map _ (List.foldlM applySetting {} chosen₁) >>= _ >>= _ = _
  cases hchosen : List.foldlM applySetting {} chosen₁ with
  | error e => rfl
  | ok o =>
    have hnone : o.formulas = [] := by
      have hsame := foldlM_withFormulas {} [] chosen₁
      rw [hchosen] at hsame
      exact congrArg Options.formulas (Except.ok.inj hsame)
    obtain ⟨group, -, hgather⟩ :=
      gather_texts (g := { Gathered.start with options := o }) nofun texts
    show gather (texts.map .plain ++ arguments₂) { Gathered.start with options := o } >>= _ = _
    rw [hgather, ← List.append_nil arguments₂, hgather₂, bind_assoc]
    refine (finish_settings rfl chosen₂).trans ?_
    rw [foldlM_withFormulas o]
    show Except.map (fun o' : Options => { o' with formulas := o.formulas ++ texts }) _ = _
    rw [hnone]
    rfl

end Propositional.Command
