import Mathlib.Data.List.AList
import Mathlib.Data.List.MinMax

/-!
Deduplication of a stream by key: every key keeps the entry of greatest rank,
and among entries of equal rank the one that came first.
-/

namespace TopicTracker.KeyedMaximum

variable {α κ σ β : Type*} [LinearOrder σ]

/-- `a` has the greatest rank in the list and is the first entry to have it. -/
def FirstMaximum (rank : α → σ) (entries : List α) (a : α) : Prop :=
  ∃ before after, entries = before ++ a :: after ∧
    (∀ b ∈ before, rank b < rank a) ∧ ∀ b ∈ after, rank b ≤ rank a

theorem FirstMaximum.mem {rank : α → σ} {entries : List α} {a : α}
    (h : FirstMaximum rank entries a) : a ∈ entries := by
  rcases h with ⟨before, after, rfl, -, -⟩
  simp

theorem FirstMaximum.rank_le {rank : α → σ} {entries : List α} {a b : α}
    (h : FirstMaximum rank entries a) (hb : b ∈ entries) : rank b ≤ rank a := by
  rcases h with ⟨before, after, rfl, hbefore, hafter⟩
  rcases List.mem_append.mp hb with hb | hb
  · exact (hbefore b hb).le
  · rcases List.mem_cons.mp hb with rfl | hb
    · exact le_rfl
    · exact hafter b hb

theorem argmax_append_cons {rank : α → σ} {before after : List α} {a : α}
    (hbefore : ∀ b ∈ before, rank b < rank a) (hafter : ∀ b ∈ after, rank b ≤ rank a) :
    (before ++ a :: after).argmax rank = some a := by
  induction after using List.reverseRecOn with
  | nil =>
      rw [List.argmax_concat]
      cases hmax : before.argmax rank with
      | none => rfl
      | some c => simp [hbefore c (List.argmax_mem hmax)]
  | append_singleton after b ih =>
      have hb : rank b ≤ rank a := hafter b (by simp)
      have hfront := ih fun c hc => hafter c (by simp [hc])
      rw [← List.cons_append, ← List.append_assoc, List.argmax_concat, hfront]
      simp [not_lt.mpr hb]

theorem firstMaximum_of_argmax {rank : α → σ} {entries : List α} {a : α}
    (h : entries.argmax rank = some a) : FirstMaximum rank entries a := by
  induction entries using List.reverseRecOn generalizing a with
  | nil => simp at h
  | append_singleton entries x ih =>
      rw [List.argmax_concat] at h
      cases hmax : entries.argmax rank with
      | none =>
          rw [List.argmax_eq_none] at hmax
          subst hmax
          obtain rfl : x = a := by simpa using h
          exact ⟨[], [], by simp, by simp, by simp⟩
      | some c =>
          simp only [hmax] at h
          by_cases hlt : rank c < rank x
          · obtain rfl : x = a := by simpa [hlt] using h
            refine ⟨entries, [], rfl, fun b hb => ?_, by simp⟩
            exact ((ih hmax).rank_le hb).trans_lt hlt
          · obtain rfl : c = a := by simpa [hlt] using h
            obtain ⟨before, after, rfl, hbefore, hafter⟩ := ih hmax
            refine ⟨before, after ++ [x], by simp, hbefore, ?_⟩
            intro b hb
            rcases List.mem_append.mp hb with hb | hb
            · exact hafter b hb
            · rw [List.mem_singleton.mp hb]
              exact not_lt.mp hlt

theorem argmax_eq_some_iff_firstMaximum {rank : α → σ} {entries : List α} {a : α} :
    entries.argmax rank = some a ↔ FirstMaximum rank entries a := by
  refine ⟨firstMaximum_of_argmax, ?_⟩
  rintro ⟨before, after, rfl, hbefore, hafter⟩
  exact argmax_append_cons hbefore hafter

theorem exists_firstMaximum (rank : α → σ) {entries : List α} (hne : entries ≠ []) :
    ∃ a, FirstMaximum rank entries a := by
  cases hmax : entries.argmax rank with
  | none => exact absurd (List.argmax_eq_none.mp hmax) hne
  | some a => exact ⟨a, firstMaximum_of_argmax hmax⟩

/-- Entries of one key that share the key's greatest rank carry one value. -/
def Untied (key : α → κ) (rank : α → σ) (value : α → β) (entries : List α) : Prop :=
  ∀ a ∈ entries, ∀ b ∈ entries, key a = key b → rank a = rank b →
    (∀ c ∈ entries, key c = key a → rank c ≤ rank a) → value a = value b

theorem Untied.perm {key : α → κ} {rank : α → σ} {value : α → β} {entries entries' : List α}
    (hperm : entries'.Perm entries) (h : Untied key rank value entries) :
    Untied key rank value entries' := by
  intro a ha b hb hkey hrank hmax
  exact h a (hperm.mem_iff.mp ha) b (hperm.mem_iff.mp hb) hkey hrank
    fun c hc => hmax c (hperm.mem_iff.mpr hc)

theorem firstMaximum_filterMap_iff {γ : Type*} {rank : α → σ} {f : γ → Option α}
    {entries : List γ} {a : α} :
    FirstMaximum rank (entries.filterMap f) a ↔
      ∃ before x after, entries = before ++ x :: after ∧ f x = some a ∧
        (∀ y ∈ before, ∀ b, f y = some b → rank b < rank a) ∧
          ∀ y ∈ after, ∀ b, f y = some b → rank b ≤ rank a := by
  constructor
  · rintro ⟨front, back, hsplit, hfront, hback⟩
    obtain ⟨before, rest, rfl, rfl, hrest⟩ := List.filterMap_eq_append_iff.mp hsplit
    obtain ⟨skipped, x, after, rfl, hskipped, hx, rfl⟩ := List.filterMap_eq_cons_iff.mp hrest
    refine ⟨before ++ skipped, x, after, by simp, hx, ?_, ?_⟩
    · intro y hy b hb
      rcases List.mem_append.mp hy with hy | hy
      · exact hfront b (List.mem_filterMap.mpr ⟨y, hy, hb⟩)
      · simp [hskipped y hy] at hb
    · intro y hy b hb
      exact hback b (List.mem_filterMap.mpr ⟨y, hy, hb⟩)
  · rintro ⟨before, x, after, rfl, hx, hbefore, hafter⟩
    refine ⟨before.filterMap f, after.filterMap f, by simp [hx], ?_, ?_⟩
    · intro b hb
      obtain ⟨y, hy, hyb⟩ := List.mem_filterMap.mp hb
      exact hbefore y hy b hyb
    · intro b hb
      obtain ⟨y, hy, hyb⟩ := List.mem_filterMap.mp hb
      exact hafter y hy b hyb

variable [DecidableEq κ]

/-- Store an entry under its key unless an entry of at least its rank is there
already. -/
def keepGreater (key : α → κ) (rank : α → σ) (kept : AList fun _ : κ => α) (a : α) :
    AList fun _ : κ => α :=
  match kept.lookup (key a) with
  | some b => if rank a ≤ rank b then kept else kept.insert (key a) a
  | none => kept.insert (key a) a

def collect (key : α → κ) (rank : α → σ) (entries : List α) : AList fun _ : κ => α :=
  entries.foldl (keepGreater key rank) ∅

def values (kept : AList fun _ : κ => α) : List α :=
  kept.entries.map Sigma.snd

theorem mem_values_iff {kept : AList fun _ : κ => α} {a : α} :
    a ∈ values kept ↔ ∃ k, kept.lookup k = some a := by
  simp only [values, List.mem_map]
  constructor
  · rintro ⟨⟨k, b⟩, hmem, rfl⟩
    exact ⟨k, AList.mem_lookup_iff.mpr hmem⟩
  · rintro ⟨k, hk⟩
    exact ⟨⟨k, a⟩, AList.mem_lookup_iff.mp hk, rfl⟩

theorem lookup_keepGreater (key : α → κ) (rank : α → σ) (kept : AList fun _ : κ => α)
    (a : α) (k : κ) :
    (keepGreater key rank kept a).lookup k =
      if key a = k then
        some ((kept.lookup k).elim a fun b => if rank b < rank a then a else b)
      else kept.lookup k := by
  unfold keepGreater
  by_cases hk : key a = k
  · subst hk
    cases hold : kept.lookup (key a) with
    | none => simp [AList.lookup_insert]
    | some b =>
        by_cases hle : rank a ≤ rank b
        · simp [hle, hold, not_lt.mpr hle]
        · simp [hle, not_le.mp hle, AList.lookup_insert]
  · cases kept.lookup (key a) with
    | none => simp [hk, AList.lookup_insert_ne (Ne.symm hk)]
    | some b => by_cases hle : rank a ≤ rank b <;>
        simp [hk, hle, AList.lookup_insert_ne (Ne.symm hk)]

/-- What the fold holds under a key is the maximum over the key's entries. -/
theorem lookup_collect (key : α → κ) (rank : α → σ) (entries : List α) (k : κ) :
    (collect key rank entries).lookup k =
      (entries.filter fun a => key a = k).argmax rank := by
  induction entries using List.reverseRecOn with
  | nil => simp [collect, List.argmax_nil]
  | append_singleton entries a ih =>
      have hstep : collect key rank (entries ++ [a]) =
          keepGreater key rank (collect key rank entries) a := by
        simp [collect]
      rw [hstep, lookup_keepGreater, ih, List.filter_append]
      by_cases hk : key a = k
      · rw [if_pos hk, List.filter_singleton, decide_eq_true hk, cond_true,
          List.argmax_concat]
        cases (entries.filter fun a => key a = k).argmax rank with
        | none => rfl
        | some b => by_cases hlt : rank b < rank a <;> simp [hlt]
      · simp [hk]

theorem mem_values_collect_iff {key : α → κ} {rank : α → σ} {entries : List α} {a : α} :
    a ∈ values (collect key rank entries) ↔
      FirstMaximum rank (entries.filter fun b => key b = key a) a := by
  rw [mem_values_iff]
  constructor
  · rintro ⟨k, hk⟩
    rw [lookup_collect, argmax_eq_some_iff_firstMaximum] at hk
    obtain rfl : key a = k := by simpa using (List.mem_filter.mp hk.mem).2
    exact hk
  · intro h
    exact ⟨key a, by rw [lookup_collect, argmax_eq_some_iff_firstMaximum]; exact h⟩

theorem exists_mem_values_collect (key : α → κ) (rank : α → σ) {entries : List α} {a : α}
    (ha : a ∈ entries) : ∃ b ∈ values (collect key rank entries), key b = key a := by
  obtain ⟨b, hb⟩ := exists_firstMaximum rank
    (List.ne_nil_of_mem (List.mem_filter.mpr ⟨ha, decide_eq_true rfl⟩) :
      (entries.filter fun b => key b = key a) ≠ [])
  have hkey : key b = key a := by simpa using (List.mem_filter.mp hb.mem).2
  refine ⟨b, mem_values_collect_iff.mpr ?_, hkey⟩
  rwa [hkey]

theorem eq_of_mem_values_collect {key : α → κ} {rank : α → σ} {entries : List α} {a b : α}
    (ha : a ∈ values (collect key rank entries))
    (hb : b ∈ values (collect key rank entries)) (hkey : key a = key b) : a = b := by
  have ha' := argmax_eq_some_iff_firstMaximum.mpr (mem_values_collect_iff.mp ha)
  have hb' := argmax_eq_some_iff_firstMaximum.mpr (mem_values_collect_iff.mp hb)
  rw [hkey, hb'] at ha'
  exact (Option.some.inj ha').symm

theorem rank_le_of_mem_values_collect {key : α → κ} {rank : α → σ} {entries : List α}
    {a c : α} (ha : a ∈ values (collect key rank entries)) (hc : c ∈ entries)
    (hkey : key c = key a) : rank c ≤ rank a :=
  (mem_values_collect_iff.mp ha).rank_le
    (List.mem_filter.mpr ⟨hc, decide_eq_true hkey⟩)

theorem mem_of_mem_values_collect {key : α → κ} {rank : α → σ} {entries : List α} {a : α}
    (ha : a ∈ values (collect key rank entries)) : a ∈ entries :=
  (List.mem_filter.mp (mem_values_collect_iff.mp ha).mem).1

theorem Untied.map_values_subset {key : α → κ} {rank : α → σ} {value : α → β}
    {entries entries' : List α} (h : Untied key rank value entries)
    (hperm : entries'.Perm entries) {v : β}
    (hv : v ∈ (values (collect key rank entries')).map value) :
    v ∈ (values (collect key rank entries)).map value := by
  obtain ⟨a, ha, rfl⟩ := List.mem_map.mp hv
  have haMem : a ∈ entries := hperm.mem_iff.mp (mem_of_mem_values_collect ha)
  obtain ⟨b, hb, hkey⟩ := exists_mem_values_collect key rank haMem
  have hbMem : b ∈ entries := mem_of_mem_values_collect hb
  have hba : rank b ≤ rank a :=
    rank_le_of_mem_values_collect ha (hperm.mem_iff.mpr hbMem) hkey
  have hab : rank a ≤ rank b := rank_le_of_mem_values_collect hb haMem hkey.symm
  have hvalue : value b = value a :=
    h b hbMem a haMem hkey (le_antisymm hba hab) fun c hc hck =>
      rank_le_of_mem_values_collect hb hc hck
  exact List.mem_map.mpr ⟨b, hb, hvalue⟩

theorem mem_values_collect_cons {key : α → κ} {rank : α → σ} {entries : List α} {a : α}
    (hmax : ∀ c ∈ entries, key c = key a → rank c ≤ rank a) :
    a ∈ values (collect key rank (a :: entries)) := by
  rw [mem_values_collect_iff]
  refine ⟨[], entries.filter fun b => key b = key a, by simp, by simp, ?_⟩
  intro b hb
  obtain ⟨hb, hkey⟩ := List.mem_filter.mp hb
  exact hmax b hb (by simpa using hkey)

/-- The values kept from a stream of items are the same for every order of the
items exactly when no two entries conflict at the greatest rank of their key. -/
theorem forall_perm_map_values_iff {γ : Type*} {key : α → κ} {rank : α → σ} {value : α → β}
    {valueKey : β → κ} (hvalueKey : ∀ a, valueKey (value a) = key a) (f : γ → Option α)
    (items : List γ) :
    (∀ items' : List γ, items'.Perm items → ∀ v,
        v ∈ (values (collect key rank (items'.filterMap f))).map value ↔
          v ∈ (values (collect key rank (items.filterMap f))).map value) ↔
      Untied key rank value (items.filterMap f) := by
  constructor
  · intro h
    have hkept : ∀ a ∈ items.filterMap f,
        (∀ c ∈ items.filterMap f, key c = key a → rank c ≤ rank a) →
          value a ∈ (values (collect key rank (items.filterMap f))).map value := by
      intro a ha hmax
      obtain ⟨x, hx, hxa⟩ := List.mem_filterMap.mp ha
      obtain ⟨before, after, rfl⟩ := List.append_of_mem hx
      apply (h (x :: (before ++ after)) List.perm_middle.symm (value a)).mp
      rw [List.filterMap_cons_some hxa]
      refine List.mem_map.mpr ⟨a, mem_values_collect_cons ?_, rfl⟩
      intro c hc
      apply hmax c
      rw [(List.perm_middle.filterMap f).mem_iff, List.filterMap_cons_some hxa]
      exact List.mem_cons_of_mem a hc
    intro a ha b hb hkey hrank hmax
    obtain ⟨a', ha', hva⟩ := List.mem_map.mp (hkept a ha hmax)
    obtain ⟨b', hb', hvb⟩ := List.mem_map.mp
      (hkept b hb fun c hc hck => hrank ▸ hmax c hc (hck.trans hkey.symm))
    have hkey' : key a' = key b' := by
      rw [← hvalueKey a', ← hvalueKey b', hva, hvb, hvalueKey, hvalueKey, hkey]
    rw [← hva, ← hvb, eq_of_mem_values_collect ha' hb' hkey']
  · intro h items' hperm v
    have hentries := hperm.filterMap f
    exact ⟨h.map_values_subset hentries, (h.perm hentries).map_values_subset hentries.symm⟩

end TopicTracker.KeyedMaximum
