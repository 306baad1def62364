/-
  Facts about lists: pairs of a relation, loops that may fail, lists without
  repetitions, and the pieces of a concatenation.
-/
import Mathlib.Data.List.Forall2
import Mathlib.Data.List.Induction
import Mathlib.Data.List.Nodup

namespace CursorCommit

variable {α β γ κ : Type}

theorem forall₂_mem_left {R : α → β → Prop} {as : List α} {bs : List β}
    (h : List.Forall₂ R as bs) {a : α} (ha : a ∈ as) : ∃ b ∈ bs, R a b := by
  induction h with
  | nil => cases ha
  | cons hr _ ih =>
    rcases List.mem_cons.1 ha with rfl | ha
    · exact ⟨_, List.mem_cons_self, hr⟩
    · obtain ⟨b, hb, h⟩ := ih ha
      exact ⟨b, List.mem_cons_of_mem _ hb, h⟩

theorem forall₂_mem_right {R : α → β → Prop} {as : List α} {bs : List β}
    (h : List.Forall₂ R as bs) {b : β} (hb : b ∈ bs) : ∃ a ∈ as, R a b :=
  forall₂_mem_left h.flip hb

theorem exists_forall₂ {R : α → β → Prop} {as : List α} (h : ∀ a ∈ as, ∃ b, R a b) :
    ∃ bs, List.Forall₂ R as bs := by
  induction as with
  | nil => exact ⟨[], .nil⟩
  | cons a as ih =>
    obtain ⟨⟨b, hb⟩, has⟩ := List.forall_mem_cons.1 h
    obtain ⟨bs, hbs⟩ := ih has
    exact ⟨b :: bs, .cons hb hbs⟩

theorem map_eq_of_forall₂ {R : α → β → Prop} {f : α → κ} {g : β → κ} {as : List α} {bs : List β}
    (h : List.Forall₂ R as bs) (hfg : ∀ a b, R a b → f a = g b) : as.map f = bs.map g := by
  rw [← List.forall₂_eq_eq_eq, List.forall₂_map_left_iff, List.forall₂_map_right_iff]
  exact h.imp hfg

theorem forall₂_zip_same {R : β → γ → Prop} {as : List α} {bs : List β} {cs : List γ}
    (h : List.Forall₂ R bs cs) :
    List.Forall₂ (fun x y => (x.1 = y.1 ∧ R x.2 y.2) ∧ x.1 ∈ as) (as.zip bs) (as.zip cs) := by
  induction h generalizing as with
  | nil => simp
  | cons hr _ ih =>
    cases as with
    | nil => exact .nil
    | cons a as =>
      refine .cons ⟨⟨rfl, hr⟩, List.mem_cons_self⟩ (ih.imp fun _ _ h => ⟨h.1, ?_⟩)
      exact List.mem_cons_of_mem _ h.2

theorem pairwise_of_forall₂ {R : α → β → Prop} {S : α → α → Prop} {T : β → β → Prop} {as : List α}
    {bs : List β} (h : List.Forall₂ R as bs) (hs : as.Pairwise S)
    (hT : ∀ a a' b b', S a a' → R a b → R a' b' → T b b') : bs.Pairwise T := by
  induction h with
  | nil => exact .nil
  | @cons a b as bs hr h ih =>
    obtain ⟨ha, hs⟩ := List.pairwise_cons.1 hs
    refine List.pairwise_cons.2 ⟨fun b' hb' => ?_, ih hs⟩
    obtain ⟨a', ha', hr'⟩ := forall₂_mem_right h hb'
    exact hT a a' b b' (ha a' ha') hr hr'

/-! ## Splits at an element -/

section
variable {p : α → Bool} {as bs past rest : List α} {a : α}

/-- A list is not split at an element before all that differ from it. -/
theorem split_of_left (has : ∀ x ∈ as, p x = false) (ha : p a = true)
    (h : as ++ bs = past ++ a :: rest) : ∃ past', past = as ++ past' ∧ bs = past' ++ a :: rest := by
  rcases List.append_eq_append_iff.1 h with ⟨past', rfl, hbs⟩ | ⟨t, rfl, ht⟩
  · exact ⟨past', rfl, hbs⟩
  · cases t with
    | nil => exact ⟨[], by simp, ht.symm⟩
    | cons x t =>
      obtain ⟨rfl, -⟩ := List.cons.inj ht
      rw [has a (by simp)] at ha
      cases ha

theorem split_of_right (hbs : ∀ x ∈ bs, p x = false) (ha : p a = true)
    (h : as ++ bs = past ++ a :: rest) : ∃ rest', as = past ++ a :: rest' ∧ rest = rest' ++ bs := by
  rcases List.append_eq_append_iff.1 h with ⟨t, rfl, ht⟩ | ⟨t, rfl, ht⟩
  · rw [hbs a (by rw [ht]; simp)] at ha
    cases ha
  · cases t with
    | nil =>
      have ht : a :: rest = bs := ht
      rw [hbs a (by simp [← ht])] at ha
      cases ha
    | cons x t =>
      obtain ⟨rfl, rfl⟩ := List.cons.inj ht
      exact ⟨t, rfl, rfl⟩

end

/-! ## Loops that may fail -/

section
variable {ε : Type}

theorem except_bind_eq_ok_iff {x : Except ε α} {f : α → Except ε β} {b : β} :
    (x >>= f) = .ok b ↔ ∃ a, x = .ok a ∧ f a = .ok b := by
  cases x with
  | error e => simp [bind, Except.bind]
  | ok a => simp [bind, Except.bind]

theorem except_bind_eq_error_iff {x : Except ε α} {f : α → Except ε β} {e : ε} :
    (x >>= f) = .error e ↔ x = .error e ∨ ∃ a, x = .ok a ∧ f a = .error e := by
  cases x with
  | error e' => simp [bind, Except.bind]
  | ok a => simp [bind, Except.bind]

@[simp] theorem except_mapError_ok {δ : Type} (f : ε → δ) (a : α) :
    (Except.ok a : Except ε α).mapError f = .ok a := rfl

@[simp] theorem except_mapError_error {δ : Type} (f : ε → δ) (e : ε) :
    (Except.error e : Except ε α).mapError f = .error (f e) := rfl

theorem except_mapError_eq_ok_iff {δ : Type} {f : ε → δ} {x : Except ε α} {a : α} :
    x.mapError f = .ok a ↔ x = .ok a := by
  cases x <;> simp

theorem except_mapError_eq_error_iff {δ : Type} {f : ε → δ} {x : Except ε α} {e : δ} :
    x.mapError f = .error e ↔ ∃ fault, x = .error fault ∧ e = f fault := by
  cases x <;> simp [eq_comm]

theorem except_isOk_iff {x : Except ε α} : x.isOk = true ↔ ∃ a, x = .ok a := by
  cases x <;> simp [Except.isOk, Except.toBool]

theorem mapM_eq_ok_iff {f : α → Except ε β} {as : List α} {bs : List β} :
    as.mapM f = .ok bs ↔ List.Forall₂ (fun a b => f a = .ok b) as bs := by
  induction as generalizing bs with
  | nil => cases bs <;> simp [pure, Except.pure]
  | cons a as ih =>
    simp only [List.mapM_cons, except_bind_eq_ok_iff, ih, List.forall₂_cons_left_iff]
    constructor
    · rintro ⟨b, hb, bs', hbs, h⟩
      cases h
      exact ⟨b, bs', hb, hbs, rfl⟩
    · rintro ⟨b, bs', hb, hbs, rfl⟩
      exact ⟨b, hb, bs', hbs, rfl⟩

theorem exists_mapM_eq_ok_iff {f : α → Except ε β} {as : List α} :
    (∃ bs, as.mapM f = .ok bs) ↔ ∀ a ∈ as, ∃ b, f a = .ok b := by
  simp only [mapM_eq_ok_iff]
  constructor
  · rintro ⟨bs, h⟩ a ha
    obtain ⟨b, -, hb⟩ := forall₂_mem_left h ha
    exact ⟨b, hb⟩
  · exact exists_forall₂

/-- **A loop that fails** does so at the first element that fails. -/
theorem mapM_eq_error_iff {f : α → Except ε β} {as : List α} {e : ε} :
    as.mapM f = .error e ↔ ∃ before a after, as = before ++ a :: after ∧
      (∀ b ∈ before, ∃ y, f b = .ok y) ∧ f a = .error e := by
  induction as with
  | nil => simp [pure, Except.pure]
  | cons a as ih =>
    simp only [List.mapM_cons, except_bind_eq_error_iff, ih, List.cons_eq_append_iff]
    constructor
    · rintro (ha | ⟨y, ha, ⟨before, a', after, rfl, hok, ha'⟩ | ⟨_, -, h⟩⟩)
      · exact ⟨[], a, as, Or.inl ⟨rfl, rfl⟩, by simp, ha⟩
      · refine ⟨a :: before, a', after, Or.inr ⟨before, rfl, rfl⟩, ?_, ha'⟩
        exact List.forall_mem_cons.2 ⟨⟨y, ha⟩, hok⟩
      · cases h
    · rintro ⟨_, a', after, ⟨rfl, h⟩ | ⟨before, rfl, rfl⟩, hok, ha'⟩
      · cases h
        exact Or.inl ha'
      · obtain ⟨⟨y, ha⟩, hok⟩ := List.forall_mem_cons.1 hok
        exact Or.inr ⟨y, ha, Or.inl ⟨before, a', after, rfl, hok, ha'⟩⟩

theorem exists_of_mapM_eq_error {f : α → Except ε β} {as : List α} {e : ε}
    (h : as.mapM f = .error e) : ∃ a ∈ as, f a = .error e := by
  obtain ⟨before, a, after, rfl, -, ha⟩ := mapM_eq_error_iff.1 h
  exact ⟨a, by simp, ha⟩

end

/-! ## Without repetitions -/

section
variable [DecidableEq α]

theorem eraseDups_concat (xs : List α) (x : α) :
    (xs ++ [x]).eraseDups = if x ∈ xs then xs.eraseDups else xs.eraseDups ++ [x] := by
  rw [List.eraseDups_append]
  by_cases h : x ∈ xs
  · simp [List.removeAll, h]
  · simp [List.removeAll, h, List.eraseDups_cons]

theorem nodup_eraseDups (xs : List α) : xs.eraseDups.Nodup := by
  induction xs using List.reverseRecOn with
  | nil => exact List.nodup_nil
  | append_singleton xs x ih =>
    rw [eraseDups_concat]
    split
    · exact ih
    · next h =>
      refine List.nodup_append.2 ⟨ih, List.nodup_singleton x, ?_⟩
      intro a ha b hb he
      rw [List.mem_singleton.1 hb] at he
      exact h (he ▸ List.mem_eraseDups.1 ha)

/-- Without repetitions, what comes first stays first. -/
theorem pairwise_idxOf_eraseDups (xs : List α) :
    xs.eraseDups.Pairwise fun x y => xs.idxOf x < xs.idxOf y := by
  induction xs using List.reverseRecOn with
  | nil => exact .nil
  | append_singleton xs x ih =>
    have hold : xs.eraseDups.Pairwise fun a b => (xs ++ [x]).idxOf a < (xs ++ [x]).idxOf b := by
      refine ih.imp_of_mem fun ha hb h => ?_
      rw [List.mem_eraseDups] at ha hb
      rwa [List.idxOf_append_of_mem ha, List.idxOf_append_of_mem hb]
    rw [eraseDups_concat]
    split
    · exact hold
    · next hx =>
      refine List.pairwise_append.2 ⟨hold, List.pairwise_singleton _ _, fun a ha b hb => ?_⟩
      rw [List.mem_eraseDups] at ha
      rw [List.mem_singleton.1 hb, List.idxOf_append_of_mem ha, List.idxOf_append_of_notMem hx]
      have := List.idxOf_lt_length_of_mem ha
      omega

theorem mem_of_idxOf? {xs : List α} {x : α} {k : Nat} (h : xs.idxOf? x = some k) : x ∈ xs := by
  by_contra hn
  rw [List.idxOf?_eq_none_iff.2 hn] at h
  cases h

theorem idxOf?_concat {xs : List α} {x : α} (hx : x ∉ xs) (y : α) :
    (xs ++ [x]).idxOf? y = if x = y then some xs.length else xs.idxOf? y := by
  have hlast : (xs ++ [x]).idxOf? y =
      (xs.idxOf? y).or (if x = y then some xs.length else none) := by
    by_cases h : x = y <;> simp [List.idxOf?, List.findIdx?_append, h]
  rw [hlast]
  split
  · next h =>
    subst h
    rw [List.idxOf?_eq_none_iff.2 hx, Option.none_or]
  · exact Option.or_none

end

theorem eq_of_pairwise_lt {f : α → Nat} {xs ys : List α}
    (hx : xs.Pairwise fun a b => f a < f b) (hy : ys.Pairwise fun a b => f a < f b)
    (h : ∀ a, a ∈ xs ↔ a ∈ ys) : xs = ys := by
  have hne : ∀ a b, f a < f b → a ≠ b := fun a b hlt he => absurd (he ▸ hlt) (Nat.lt_irrefl _)
  have hperm : xs.Perm ys := (List.perm_ext_iff_of_nodup (hx.imp (hne _ _)) (hy.imp (hne _ _))).2 h
  exact hperm.eq_of_pairwise (fun _ _ _ _ hab hba => absurd hba (Nat.lt_asymm hab)) hx hy

theorem eq_filter_of_sublist {xs ys : List α} {p : α → Bool} (h : ys.Sublist xs) (hnd : xs.Nodup)
    (hp : ∀ x ∈ xs, p x = true ↔ x ∈ ys) : ys = xs.filter p := by
  induction h with
  | slnil => rfl
  | @cons ys xs x h ih =>
    obtain ⟨hx, hnd⟩ := List.nodup_cons.1 hnd
    obtain ⟨hpx, hp⟩ := List.forall_mem_cons.1 hp
    have hno : ¬ p x = true := fun hpt => hx (h.subset (hpx.1 hpt))
    rw [List.filter_cons_of_neg hno]
    exact ih hnd hp
  | @cons_cons ys xs x h ih =>
    obtain ⟨hx, hnd⟩ := List.nodup_cons.1 hnd
    obtain ⟨hpx, hp⟩ := List.forall_mem_cons.1 hp
    rw [List.filter_cons_of_pos (hpx.2 List.mem_cons_self)]
    refine congrArg _ (ih hnd fun y hy => (hp y hy).trans ?_)
    rw [List.mem_cons, or_iff_right]
    rintro rfl
    exact hx hy

/-! ## Pieces -/

section
variable [DecidableEq κ]

theorem filter_flatMap_eq_nil {xs : List β} {f : β → List α} {g : α → κ} {k : β → κ}
    (hf : ∀ x ∈ xs, ∀ a ∈ f x, g a = k x) {key : κ} (h : key ∉ xs.map k) :
    (xs.flatMap f).filter (g · = key) = [] := by
  refine List.filter_eq_nil_iff.2 ?_
  intro a ha
  obtain ⟨x, hx, ha⟩ := List.mem_flatMap.1 ha
  have : key ≠ k x := fun he => h (he ▸ List.mem_map_of_mem hx)
  simpa [hf x hx a ha] using this.symm

/-- Pieces with different keys are told apart by the keys of what is in
    them. -/
theorem filter_flatMap_eq {xs : List β} {f : β → List α} {g : α → κ} {k : β → κ}
    (hf : ∀ x ∈ xs, ∀ a ∈ f x, g a = k x) (hnd : (xs.map k).Nodup) {x : β} (hx : x ∈ xs) :
    (xs.flatMap f).filter (g · = k x) = f x := by
  induction xs with
  | nil => cases hx
  | cons y xs ih =>
    obtain ⟨hy, hnd'⟩ := List.nodup_cons.1 hnd
    obtain ⟨hfy, hf'⟩ := List.forall_mem_cons.1 hf
    rw [List.flatMap_cons, List.filter_append]
    rcases List.mem_cons.1 hx with rfl | hx
    · rw [filter_flatMap_eq_nil hf' hy, List.append_nil]
      exact List.filter_eq_self.2 fun a ha => by simpa using hfy a ha
    · have hne : k y ≠ k x := fun he => hy (he ▸ List.mem_map_of_mem hx)
      rw [ih hf' hnd' hx, List.filter_eq_nil_iff.2 fun a ha => by simpa [hfy a ha] using hne,
        List.nil_append]

theorem filter_eq_singleton {xs : List α} {f : α → κ} {x : α}
    (hnd : (xs.map f).Nodup) (hx : x ∈ xs) : xs.filter (f · = f x) = [x] := by
  have h := filter_flatMap_eq (f := fun x => [x]) (g := f) (k := f) (by simp) hnd hx
  rwa [List.flatMap_singleton'] at h

theorem filter_flatten_eq {names : List κ} {lists : List (List α)}
    {g : α → κ} (h : List.Forall₂ (fun name list => ∀ a ∈ list, g a = name) names lists)
    (hnd : names.Nodup) : List.Forall₂ (fun name list => lists.flatten.filter (g · = name) = list)
      names lists := by
  have hlen := h.length_eq
  have hflat : (names.zip lists).flatMap Prod.snd = lists.flatten := by
    rw [List.flatMap_def, List.map_snd_zip (Nat.le_of_eq hlen.symm)]
  refine List.forall₂_iff_zip.2 ⟨hlen, fun {name list} hmem => ?_⟩
  rw [← hflat]
  refine filter_flatMap_eq (f := Prod.snd) (k := Prod.fst) ?_ ?_ hmem
  · rintro ⟨name', list'⟩ hmem'
    exact (List.forall₂_iff_zip.1 h).2 hmem'
  · rwa [List.map_fst_zip (Nat.le_of_eq hlen)]

end

end CursorCommit
