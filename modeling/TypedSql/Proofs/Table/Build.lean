import TypedSql.Proofs.Outcome
import TypedSql.Proofs.Table.WellFormed

/-! Building a table accepts exactly the well-formed descriptions, returns the table that the
description stands for, and reports an error that is true of the description. The checks run one
after the other and the key is settled between them; the statements look at the steps alone. -/
namespace TypedSql

namespace Table

section Checks

variable {α : Type} {t : Table} {e : TableError}

theorem reject_eq_ok_iff {error : α → TableError} {found : Option α} :
    reject error found = .ok () ↔ found = none := by
  cases found <;> simp [reject]

theorem reject_eq_error_iff {error : α → TableError} {found : Option α} :
    reject error found = .error e ↔ ∃ x, found = some x ∧ error x = e := by
  cases found <;> simp [reject]

theorem checkAll_eq_ok_iff {check : α → Except TableError Unit} {xs : List α} :
    checkAll check xs = .ok () ↔ ∀ x ∈ xs, check x = .ok () := by
  induction xs with
  | nil => simp [checkAll]
  | cons x rest ih =>
    simp only [checkAll, check_bind_eq_ok_iff, ih, List.mem_cons, forall_eq_or_imp]

theorem exists_of_checkAll_eq_error {check : α → Except TableError Unit} {xs : List α}
    (h : checkAll check xs = .error e) : ∃ x ∈ xs, check x = .error e := by
  induction xs with
  | nil => cases h
  | cons x rest ih =>
    rcases bind_eq_error_iff.mp h with h | ⟨_, _, h⟩
    · exact ⟨x, List.mem_cons_self, h⟩
    · obtain ⟨y, member, h⟩ := ih h
      exact ⟨y, List.mem_cons_of_mem _ member, h⟩

theorem firstRepeated?_eq_none_iff {seen names : List String} :
    firstRepeated? seen names = none ↔ names.Nodup ∧ ∀ name ∈ names, name ∉ seen := by
  induction names generalizing seen with
  | nil => simp [firstRepeated?]
  | cons name rest ih =>
    rw [firstRepeated?]
    split
    case isTrue repeated => simp [repeated]
    case isFalse fresh =>
      rw [ih, List.nodup_cons]
      constructor
      · rintro ⟨distinct, apart⟩
        refine ⟨⟨fun again => apart name again List.mem_cons_self, distinct⟩, ?_⟩
        intro other member
        rcases List.mem_cons.mp member with rfl | member
        · exact fresh
        · exact fun old => apart other member (List.mem_cons_of_mem _ old)
      · rintro ⟨⟨single, distinct⟩, apart⟩
        refine ⟨distinct, fun other member old => ?_⟩
        rcases List.mem_cons.mp old with rfl | old
        · exact single member
        · exact apart other (List.mem_cons_of_mem _ member) old

theorem split_of_firstRepeated?_eq_some {seen names : List String} {name : String}
    (h : firstRepeated? seen names = some name) :
    ∃ before after, names = before ++ name :: after ∧ (name ∈ before ∨ name ∈ seen) := by
  induction names generalizing seen with
  | nil => cases h
  | cons first rest ih =>
    rw [firstRepeated?] at h
    split at h
    case isTrue repeated =>
      cases h
      exact ⟨[], rest, rfl, Or.inr repeated⟩
    case isFalse =>
      obtain ⟨before, after, rfl, earlier⟩ := ih h
      refine ⟨first :: before, after, rfl, ?_⟩
      rcases earlier with earlier | earlier
      · exact Or.inl (List.mem_cons_of_mem _ earlier)
      · rcases List.mem_cons.mp earlier with rfl | earlier
        · exact Or.inl List.mem_cons_self
        · exact Or.inr earlier

theorem declares_eq_true_iff {name : String} : t.declares name = true ↔ name ∈ t.columnNames := by
  simp [declares, columnNames]

theorem checkName_eq_ok_iff : t.checkName = .ok () ↔ ∃ c ∈ t.name.toList, Text.isBlank c = false := by
  unfold checkName Text.isAllBlank
  split <;> simp_all

theorem checkColumns_eq_ok_iff :
    t.checkColumns = .ok () ↔ t.columns ≠ [] ∧ t.columnNames.Nodup := by
  unfold checkColumns
  split
  case isTrue empty => simp [List.isEmpty_iff.mp empty]
  case isFalse full =>
    rw [List.isEmpty_iff] at full
    rw [reject_eq_ok_iff, firstRepeated?_eq_none_iff]
    simp [full, columnNames]

theorem mem_flagged {c : Column} : c ∈ t.flagged ↔ c ∈ t.columns ∧ c.primaryKey = true :=
  List.mem_filter

theorem checkKey_eq_ok_iff :
    t.checkKey = .ok () ↔ (t.compositeKey ≠ [] → t.flagged = []) := by
  unfold checkKey
  split
  case isTrue empty => simp [List.isEmpty_iff.mp empty]
  case isFalse full =>
    rw [List.isEmpty_iff] at full
    simp [reject_eq_ok_iff, full]

theorem checkAutoincrement_eq_ok_iff :
    t.checkAutoincrement = .ok () ↔ ∀ c ∈ t.columns, c.autoincrement = true → c.primaryKey = true := by
  simp [checkAutoincrement, reject_eq_ok_iff]

theorem checkRowid_eq_ok_iff :
    t.checkRowid = .ok () ↔ (t.withoutRowid = true → t.compositeKey ≠ [] ∨ t.flagged ≠ []) := by
  unfold checkRowid
  simp only [List.isEmpty_iff]
  split
  case isTrue bare => simp [bare]
  case isFalse keyed =>
    simp only [true_iff]
    intro out
    by_cases composite : t.compositeKey = []
    · exact Or.inr fun flagged => keyed ⟨out, composite, flagged⟩
    · exact Or.inl composite

theorem checkNames_eq_ok_iff {names : List String} :
    t.checkNames names = .ok () ↔ ∀ name ∈ names, name ∈ t.columnNames := by
  simp [checkNames, reject_eq_ok_iff, firstUnknown?, declares_eq_true_iff]

theorem checkUnique_eq_ok_iff {u : UniqueGroup} :
    t.checkUnique u = .ok () ↔ u.columns ≠ [] ∧ ∀ name ∈ u.columns, name ∈ t.columnNames := by
  unfold checkUnique
  split <;> simp_all [checkNames_eq_ok_iff]

theorem checkForeignKey_eq_ok_iff {k : ForeignKey} :
    t.checkForeignKey k = .ok () ↔ k.columns ≠ [] ∧
      k.columns.length = k.parentColumns.length ∧ ∀ name ∈ k.columns, name ∈ t.columnNames := by
  unfold checkForeignKey
  simp only [List.isEmpty_iff]
  split
  case isTrue uneven => grind
  case isFalse even => rw [checkNames_eq_ok_iff]; grind

end Checks

section Fold

variable {t : Table}

/-- Settling the key either moves two flags or more into the composite key or does nothing. -/
theorem foldKey_cases (t : Table) :
    (t.compositeKey = [] ∧ 2 ≤ t.flagged.length ∧
      t.foldKey =
        { t with
          compositeKey := t.flagged.map (·.name)
          columns := t.columns.map fun c => { c with primaryKey := false } }) ∨
    ((t.compositeKey = [] → t.flagged.length ≤ 1) ∧ t.foldKey = t) := by
  unfold foldKey
  simp only [List.isEmpty_iff]
  split
  case isTrue several => exact Or.inl ⟨several.1, several.2, rfl⟩
  case isFalse few => exact Or.inr ⟨fun empty => Nat.not_lt.mp fun many => few ⟨empty, many⟩, rfl⟩

theorem columnNames_foldKey : t.foldKey.columnNames = t.columnNames := by
  rcases t.foldKey_cases with ⟨_, _, h⟩ | ⟨_, h⟩
  · rw [h]
    simp [columnNames, Function.comp_def]
  · rw [h]

@[simp] theorem name_foldKey : t.foldKey.name = t.name := by
  unfold foldKey
  split <;> rfl

@[simp] theorem uniques_foldKey : t.foldKey.uniques = t.uniques := by
  unfold foldKey
  split <;> rfl

@[simp] theorem foreignKeys_foldKey : t.foldKey.foreignKeys = t.foreignKeys := by
  unfold foldKey
  split <;> rfl

@[simp] theorem withoutRowid_foldKey : t.foldKey.withoutRowid = t.withoutRowid := by
  unfold foldKey
  split <;> rfl

theorem mem_columnNames {c : Column} (h : c ∈ t.columns) : c.name ∈ t.columnNames :=
  List.mem_map_of_mem h

end Fold

theorem validate_eq_ok_iff {d t : Table} :
    d.validate = .ok t ↔ d.checkName = .ok () ∧ d.checkColumns = .ok () ∧ d.checkKey = .ok () ∧
      d.foldKey.checkAutoincrement = .ok () ∧ d.foldKey.checkRowid = .ok () ∧
      d.foldKey.checkNames d.foldKey.compositeKey = .ok () ∧
      checkAll d.foldKey.checkUnique d.foldKey.uniques = .ok () ∧
      checkAll d.foldKey.checkForeignKey d.foldKey.foreignKeys = .ok () ∧ d.foldKey = t := by
  simp only [validate, check_bind_eq_ok_iff, pure, Except.pure, Except.ok.injEq]

/-- The key that the checks settle is the one that the description stands for. -/
theorem settles_foldKey {d : Table} (exclusive : d.compositeKey ≠ [] → d.flagged = []) :
    d.Settles d.foldKey := by
  rcases d.foldKey_cases with ⟨empty, several, h⟩ | ⟨few, h⟩
  · rw [h]
    exact ⟨rfl, rfl, rfl, rfl, fun few => absurd several (Nat.not_le.mpr few), fun _ => ⟨rfl, rfl⟩⟩
  · rw [h]
    refine ⟨rfl, rfl, rfl, rfl, fun _ => ⟨rfl, rfl⟩, fun several => ?_⟩
    by_cases empty : d.compositeKey = []
    · exact absurd several (Nat.not_le.mpr (Nat.lt_succ_of_le (few empty)))
    · simp [exclusive empty] at several

theorem flagged_foldKey_eq_nil {d : Table} (h : d.foldKey.compositeKey ≠ [])
    (exclusive : d.compositeKey ≠ [] → d.flagged = []) : d.foldKey.flagged = [] := by
  rcases d.foldKey_cases with ⟨_, _, fold⟩ | ⟨_, fold⟩
  · rw [fold]
    simp [flagged]
  · rw [fold] at h ⊢
    exact exclusive h

theorem eq_of_mem_flagged {t : Table} (single : t.flagged.length ≤ 1) {c d : Column}
    (hc : c ∈ t.flagged) (hd : d ∈ t.flagged) : d = c := by
  cases flagged : t.flagged with
  | nil => simp [flagged] at hc
  | cons x rest =>
    have alone : rest = [] := by simpa [flagged] using single
    rw [flagged, alone, List.mem_singleton] at hc hd
    rw [hc, hd]

theorem flagged_eq_singleton {t : Table} (distinct : t.columnNames.Nodup) {c : Column}
    (member : c ∈ t.columns) (flag : c.primaryKey = true)
    (alone : ∀ other ∈ t.columns, other.primaryKey = true → other = c) : t.flagged = [c] := by
  have unique : t.flagged.Nodup :=
    ((List.pairwise_map.mp distinct).imp fun apart same => apart (congrArg _ same)).filter _
  have mine := mem_flagged.mpr ⟨member, flag⟩
  cases flagged : t.flagged with
  | nil => simp [flagged] at mine
  | cons first rest =>
    have all : ∀ other ∈ first :: rest, other = c := by
      intro other present
      obtain ⟨declared, flag⟩ := mem_flagged.mp (flagged ▸ present)
      exact alone other declared flag
    rw [flagged] at unique
    have none : rest = [] := by
      apply List.eq_nil_iff_forall_not_mem.mpr
      intro other present
      have same := (all other (List.mem_cons_of_mem _ present)).trans
        (all first List.mem_cons_self).symm
      exact (List.nodup_cons.mp unique).1 (same ▸ present)
    rw [none, all first List.mem_cons_self]

/-- After the fold a column that numbers its rows is flagged only where it was the one flagged
column and no composite key was declared. -/
theorem autoincrement_of_foldKey {d : Table} (exclusive : d.compositeKey ≠ [] → d.flagged = [])
    (numbered : ∀ c ∈ d.foldKey.columns, c.autoincrement = true → c.primaryKey = true) :
    ∀ c ∈ d.columns, c.autoincrement = true → c.primaryKey = true ∧
      (∀ other ∈ d.columns, other.primaryKey = true → other = c) ∧ d.compositeKey = [] := by
  intro c member counts
  rcases d.foldKey_cases with ⟨_, _, fold⟩ | ⟨few, fold⟩
  · rw [fold] at numbered
    have cleared := numbered _ (List.mem_map_of_mem member) counts
    contradiction
  · rw [fold] at numbered
    have flag := numbered c member counts
    have mine := mem_flagged.mpr ⟨member, flag⟩
    have empty : d.compositeKey = [] := by
      apply Decidable.byContradiction
      intro composite
      rw [exclusive composite] at mine
      contradiction
    refine ⟨flag, fun other declared flagged => ?_, empty⟩
    exact eq_of_mem_flagged (few empty) mine (mem_flagged.mpr ⟨declared, flagged⟩)

theorem wellFormed_of_validate_eq_ok {d t : Table} (h : d.validate = .ok t) : d.WellFormed := by
  obtain ⟨named, columns, key, numbered, rowid, declared, uniques, foreignKeys, -⟩ :=
    validate_eq_ok_iff.mp h
  rw [checkName_eq_ok_iff] at named
  rw [checkColumns_eq_ok_iff] at columns
  rw [checkKey_eq_ok_iff] at key
  rw [checkAutoincrement_eq_ok_iff] at numbered
  rw [checkRowid_eq_ok_iff] at rowid
  rw [checkNames_eq_ok_iff, columnNames_foldKey] at declared
  rw [checkAll_eq_ok_iff] at uniques foreignKeys
  simp only [checkUnique_eq_ok_iff, checkForeignKey_eq_ok_iff, columnNames_foldKey] at uniques foreignKeys
  have settles := settles_foldKey key
  rw [settles.uniques] at uniques
  rw [settles.foreignKeys] at foreignKeys
  rw [settles.withoutRowid] at rowid
  refine ⟨named, columns.1, columns.2, ?_, autoincrement_of_foldKey key numbered, ?_, ?_, uniques,
    foreignKeys⟩
  · intro composite c member
    simpa using List.filter_eq_nil_iff.mp (key composite) c member
  · intro out
    rcases d.foldKey_cases with ⟨_, several, _⟩ | ⟨_, fold⟩
    · obtain ⟨c, member⟩ := List.exists_mem_of_length_pos (Nat.lt_of_succ_lt several)
      exact Or.inl ⟨c, mem_flagged.mp member⟩
    · rw [fold] at rowid
      rcases rowid out with composite | flagged
      · exact Or.inr composite
      · obtain ⟨c, member⟩ := List.exists_mem_of_ne_nil _ flagged
        exact Or.inl ⟨c, mem_flagged.mp member⟩
  · rcases d.foldKey_cases with ⟨empty, _, _⟩ | ⟨_, fold⟩
    · simp [empty]
    · rwa [fold] at declared

theorem checkNames_eq_error_iff {t : Table} {names : List String} {e : TableError} :
    t.checkNames names = .error e ↔ ∃ name, t.firstUnknown? names = some name ∧
      TableError.unknownColumn t.name name = e :=
  reject_eq_error_iff

theorem of_firstUnknown?_eq_some {t : Table} {names : List String} {name : String}
    (h : t.firstUnknown? names = some name) : name ∈ names ∧ name ∉ t.columnNames := by
  refine ⟨List.mem_of_find?_eq_some h, fun known => ?_⟩
  have unknown := List.find?_some h
  rw [declares_eq_true_iff.mpr known] at unknown
  contradiction

section Errors

variable {d : Table} {e : TableError}

theorem explains_of_checkName (h : d.checkName = .error e) : e.Explains d := by
  unfold checkName at h
  split at h
  case isTrue blank =>
    cases h
    exact List.all_eq_true.mp blank
  case isFalse => cases h

theorem explains_of_checkColumns (h : d.checkColumns = .error e) : e.Explains d := by
  unfold checkColumns at h
  split at h
  case isTrue empty =>
    cases h
    exact ⟨rfl, List.isEmpty_iff.mp empty⟩
  case isFalse =>
    obtain ⟨column, repeated, rfl⟩ := reject_eq_error_iff.mp h
    obtain ⟨before, after, names, earlier⟩ := split_of_firstRepeated?_eq_some repeated
    exact ⟨rfl, before, after, names, earlier.resolve_right List.not_mem_nil⟩

theorem explains_of_checkKey (h : d.checkKey = .error e) : e.Explains d := by
  unfold checkKey at h
  split at h
  case isTrue => cases h
  case isFalse full =>
    obtain ⟨c, first, rfl⟩ := reject_eq_error_iff.mp h
    exact ⟨rfl, fun empty => full (List.isEmpty_iff.mpr empty), by rw [first]; rfl⟩

theorem explains_of_checkAutoincrement (h : d.foldKey.checkAutoincrement = .error e) :
    e.Explains d := by
  obtain ⟨c, found, rfl⟩ := reject_eq_error_iff.mp h
  have member := List.mem_of_find?_eq_some found
  have outside := List.find?_some found
  simp only [Bool.and_eq_true, Bool.not_eq_true'] at outside
  refine ⟨name_foldKey, ?_⟩
  rcases d.foldKey_cases with ⟨_, several, fold⟩ | ⟨_, fold⟩
  · rw [fold] at member
    obtain ⟨original, declared, rfl⟩ := List.mem_map.mp member
    refine ⟨original, declared, rfl, outside.1, fun ⟨single, _⟩ => ?_⟩
    simp [single] at several
  · rw [fold] at member
    refine ⟨c, member, rfl, outside.1, fun ⟨single, _⟩ => ?_⟩
    have flag := (mem_flagged.mp (single ▸ List.mem_singleton_self c)).2
    rw [outside.2] at flag
    contradiction

theorem explains_of_checkRowid (h : d.foldKey.checkRowid = .error e) : e.Explains d := by
  unfold checkRowid at h
  simp only [List.isEmpty_iff] at h
  split at h
  case isTrue bare =>
    cases h
    obtain ⟨out, composite, flagged⟩ := bare
    refine ⟨name_foldKey, ?_⟩
    rcases d.foldKey_cases with ⟨_, several, fold⟩ | ⟨_, fold⟩
    · rw [fold, List.map_eq_nil_iff] at composite
      simp [composite] at several
    · rw [fold] at out composite flagged
      exact ⟨out, flagged, composite⟩
  case isFalse => cases h

theorem explains_of_checkNames_compositeKey
    (h : d.foldKey.checkNames d.foldKey.compositeKey = .error e) : e.Explains d := by
  obtain ⟨name, found, rfl⟩ := checkNames_eq_error_iff.mp h
  obtain ⟨member, unknown⟩ := of_firstUnknown?_eq_some found
  rw [columnNames_foldKey] at unknown
  refine ⟨name_foldKey, unknown, Or.inl ?_⟩
  rcases d.foldKey_cases with ⟨_, _, fold⟩ | ⟨_, fold⟩
  · rw [fold] at member
    obtain ⟨c, flagged, rfl⟩ := List.mem_map.mp member
    exact absurd (mem_columnNames (mem_flagged.mp flagged).1) unknown
  · rwa [fold] at member

theorem explains_of_checkUnique {u : UniqueGroup} (member : u ∈ d.uniques)
    (h : d.foldKey.checkUnique u = .error e) : e.Explains d := by
  unfold checkUnique at h
  split at h
  case isTrue empty =>
    cases h
    exact ⟨name_foldKey, u, member, rfl, List.isEmpty_iff.mp empty⟩
  case isFalse =>
    obtain ⟨name, found, rfl⟩ := checkNames_eq_error_iff.mp h
    obtain ⟨named, unknown⟩ := of_firstUnknown?_eq_some found
    rw [columnNames_foldKey] at unknown
    exact ⟨name_foldKey, unknown, Or.inr (Or.inl ⟨u, member, named⟩)⟩

theorem explains_of_checkForeignKey {k : ForeignKey} (member : k ∈ d.foreignKeys)
    (h : d.foldKey.checkForeignKey k = .error e) : e.Explains d := by
  unfold checkForeignKey at h
  split at h
  case isTrue uneven =>
    cases h
    rw [List.isEmpty_iff_length_eq_zero] at uneven
    exact ⟨name_foldKey, k, member, rfl, rfl, rfl, uneven⟩
  case isFalse =>
    obtain ⟨name, found, rfl⟩ := checkNames_eq_error_iff.mp h
    obtain ⟨named, unknown⟩ := of_firstUnknown?_eq_some found
    rw [columnNames_foldKey] at unknown
    exact ⟨name_foldKey, unknown, Or.inr (Or.inr ⟨k, member, named⟩)⟩

theorem explains_of_validate_eq_error (h : d.validate = .error e) : e.Explains d := by
  rcases bind_eq_error_iff.mp h with h | ⟨_, _, h⟩
  · exact explains_of_checkName h
  rcases bind_eq_error_iff.mp h with h | ⟨_, _, h⟩
  · exact explains_of_checkColumns h
  rcases bind_eq_error_iff.mp h with h | ⟨_, _, h⟩
  · exact explains_of_checkKey h
  rcases bind_eq_error_iff.mp h with h | ⟨_, _, h⟩
  · exact explains_of_checkAutoincrement h
  rcases bind_eq_error_iff.mp h with h | ⟨_, _, h⟩
  · exact explains_of_checkRowid h
  rcases bind_eq_error_iff.mp h with h | ⟨_, _, h⟩
  · exact explains_of_checkNames_compositeKey h
  rcases bind_eq_error_iff.mp h with h | ⟨_, _, h⟩
  · obtain ⟨u, member, h⟩ := exists_of_checkAll_eq_error h
    exact explains_of_checkUnique (uniques_foldKey ▸ member) h
  rcases bind_eq_error_iff.mp h with h | ⟨_, _, h⟩
  · obtain ⟨k, member, h⟩ := exists_of_checkAll_eq_error h
    exact explains_of_checkForeignKey (foreignKeys_foldKey ▸ member) h
  cases h

end Errors

theorem not_wellFormed_of_explains {d : Table} {e : TableError} (h : e.Explains d) :
    ¬ d.WellFormed := by
  intro sound
  cases e with
  | blankName =>
    obtain ⟨c, member, visible⟩ := sound.named
    rw [h c member] at visible
    contradiction
  | noColumns => exact sound.columns_ne_nil h.2
  | repeatedColumn table column =>
    obtain ⟨_, before, after, names, earlier⟩ := h
    have distinct := sound.columnNames_nodup
    rw [names, List.nodup_append] at distinct
    exact distinct.2.2 column earlier column List.mem_cons_self rfl
  | twoKeys table column =>
    obtain ⟨_, composite, first⟩ := h
    obtain ⟨c, first, _⟩ := Option.map_eq_some_iff.mp first
    obtain ⟨member, flag⟩ := mem_flagged.mp (List.mem_of_head? first)
    rw [sound.key_exclusive composite c member] at flag
    contradiction
  | autoincrementOutsideKey table column =>
    obtain ⟨_, c, member, _, counts, outside⟩ := h
    obtain ⟨flag, alone, composite⟩ := sound.autoincrement c member counts
    exact outside ⟨flagged_eq_singleton sound.columnNames_nodup member flag alone, composite⟩
  | rowidNeedsKey =>
    obtain ⟨_, out, flagged, composite⟩ := h
    rcases sound.rowid out with ⟨c, member, flag⟩ | declared
    · have mine := mem_flagged.mpr ⟨member, flag⟩
      rw [flagged] at mine
      contradiction
    · exact declared composite
  | unknownColumn table column =>
    obtain ⟨_, unknown, key | ⟨u, member, named⟩ | ⟨k, member, named⟩⟩ := h
    · exact unknown (sound.key_declared column key)
    · exact unknown ((sound.uniques u member).2 column named)
    · exact unknown ((sound.foreignKeys k member).2.2 column named)
  | emptyUnique =>
    obtain ⟨_, u, member, _, empty⟩ := h
    exact (sound.uniques u member).1 empty
  | keyArity =>
    obtain ⟨_, k, member, _, rfl, rfl, uneven⟩ := h
    obtain ⟨full, even, _⟩ := sound.foreignKeys k member
    rcases uneven with empty | uneven
    · exact full (List.length_eq_zero_iff.mp empty)
    · exact uneven even

theorem length_flagged_foldKey_le {d : Table} (exclusive : d.compositeKey ≠ [] → d.flagged = []) :
    d.foldKey.flagged.length ≤ 1 := by
  rcases d.foldKey_cases with ⟨_, _, fold⟩ | ⟨few, fold⟩
  · have cleared : d.foldKey.flagged = [] := by
      rw [fold]
      simp [flagged]
    simp [cleared]
  · rw [fold]
    by_cases empty : d.compositeKey = []
    · exact few empty
    · simp [exclusive empty]

theorem column?_of_nodup {t : Table} (distinct : t.columnNames.Nodup) {c : Column}
    (member : c ∈ t.columns) : t.column? c.name = some c := by
  obtain ⟨before, after, columns⟩ := List.mem_iff_append.mp member
  rw [columnNames, columns, List.map_append, List.nodup_append] at distinct
  have apart : before.find? (·.name == c.name) = none := by
    rw [List.find?_eq_none]
    intro other earlier same
    exact distinct.2.2 _ (List.mem_map_of_mem earlier) c.name (by simp) (eq_of_beq same)
  rw [column?, columns, List.find?_append, apart, Option.none_or]
  simp

/-- Where a composite key excludes flags and at most one column is flagged, the two views of the key
agree. -/
theorem consistent_of_exclusive {t : Table} (exclusive : t.compositeKey ≠ [] → t.flagged = [])
    (few : t.flagged.length ≤ 1) (distinct : t.columnNames.Nodup) : t.Consistent where
  key_exclusive := by
    by_cases composite : t.compositeKey = []
    · exact Or.inl composite
    · exact Or.inr (exclusive composite)
  flagged_length_le := few
  hasSingleKey_iff := by
    simp only [hasSingleKey, Bool.and_eq_true, List.isEmpty_iff, beq_iff_eq]
    constructor
    · rintro ⟨_, single⟩
      obtain ⟨c, member⟩ := List.exists_mem_of_length_pos (single ▸ Nat.one_pos)
      exact ⟨c, mem_flagged.mp member⟩
    · rintro ⟨c, member⟩
      have some := List.length_pos_of_mem (mem_flagged.mpr member)
      refine ⟨?_, by omega⟩
      apply Decidable.byContradiction
      intro composite
      simp [exclusive composite] at some
  keyColumn?_eq := by
    cases flagged : t.flagged with
    | nil => simp [keyColumn?, flagged]
    | cons c rest =>
      have composite : t.compositeKey = [] := by
        apply Decidable.byContradiction
        intro composite
        simp [exclusive composite] at flagged
      have alone : rest = [] := by simpa [flagged] using few
      simp [keyColumn?, hasSingleKey, flagged, composite, alone]
  column?_eq := fun _ member => column?_of_nodup distinct member

theorem consistent_of_validate_eq_ok {d t : Table} (h : d.validate = .ok t) : t.Consistent := by
  obtain ⟨-, columns, key, -, -, -, -, -, rfl⟩ := validate_eq_ok_iff.mp h
  rw [checkKey_eq_ok_iff] at key
  have distinct := (checkColumns_eq_ok_iff.mp columns).2
  rw [← columnNames_foldKey] at distinct
  exact consistent_of_exclusive (fun composite => flagged_foldKey_eq_nil composite key)
    (length_flagged_foldKey_le key) distinct

/-- The steps build a table if and only if what they describe is well formed. The table is then the
one that the description stands for, with at most one kind of key; otherwise the error tells what
is wrong with the description. -/
theorem build_eq_ok_iff_wellFormed (name : String) (steps : List TableStep) :
    ((∃ t, build name steps = .ok t) ↔ (described name steps).WellFormed) ∧
    (∀ t, build name steps = .ok t → (described name steps).Settles t ∧ t.Consistent) ∧
    ∀ e, build name steps = .error e → e.Explains (described name steps) := by
  rw [build, ofSteps_eq_described]
  refine ⟨?_, ?_, ?_⟩
  · constructor
    · rintro ⟨t, built⟩
      exact wellFormed_of_validate_eq_ok built
    · intro sound
      cases outcome : (described name steps).validate with
      | ok t => exact ⟨t, rfl⟩
      | error e =>
        exact absurd sound (not_wellFormed_of_explains (explains_of_validate_eq_error outcome))
  · intro t built
    obtain ⟨-, -, key, -, -, -, -, -, rfl⟩ := validate_eq_ok_iff.mp built
    constructor
    · exact settles_foldKey (checkKey_eq_ok_iff.mp key)
    · exact consistent_of_validate_eq_ok built
  · intro e failed
    exact explains_of_validate_eq_error failed

/-- A table whose two key columns are flagged one by one. -/
def memberSteps : List TableStep :=
  [.column { Column.plain "user" ⟨.int .i64, false⟩ with primaryKey := true },
    .column { Column.plain "team" ⟨.int .i64, false⟩ with primaryKey := true },
    .unique ⟨"pair", ["team", "user"]⟩, .withoutRowid]

theorem build_eq_ok_iff_wellFormed_members :
    (described "members" memberSteps).WellFormed ∧
    ∃ t, build "members" memberSteps = .ok t ∧ t.compositeKey = ["user", "team"] ∧
      t.flagged = [] := by
  have sound : (described "members" memberSteps).WellFormed := by
    refine ⟨⟨'m', by decide, by decide⟩, ?_, ?_, ?_, ?_, ?_, ?_, ?_, ?_⟩ <;> decide
  obtain ⟨accepts, settles, _⟩ := build_eq_ok_iff_wellFormed "members" memberSteps
  obtain ⟨t, built⟩ := accepts.mpr sound
  obtain ⟨settled, consistent⟩ := settles t built
  have key : t.compositeKey = ["user", "team"] := (settled.folded (by decide)).2
  exact ⟨sound, t, built, key, consistent.key_exclusive.resolve_left (by simp [key])⟩

end Table

end TypedSql
