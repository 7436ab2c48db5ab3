import Mathlib.Data.List.Nodup
import MpvmApp.Sql.Json
import MpvmApp.Sql.Text

/-!
# Members of a document

A service reads a document as a dictionary: a member that is missing is read as null, and the
members of another dictionary replace those of the same names.  The members that hold raw
answers are not stored.

Main definitions:

- `dictGet`: the value of a member.
- `overlay`: `dict.update`.
- `stripMembers`: the members without the raw answers.
- `Json.nullFree`: no value of a document is null.

Main results:

- Theorem `stripMembers_stripMembers`: what is stored has no raw answers.
- Theorem `overlay_absorb`: an update that has been stored changes nothing when it is made
  again.
-/

namespace MpvmApp

/-- The members of a dictionary, in their order. -/
abbrev Members := List (String × Json)

/-- `dict.get(key)`. -/
def dictGet (members : Members) (key : String) : Json :=
  ((members.find? fun m => decide (m.1 = key)).map Prod.snd).getD .null

/-- `members.update(fields)`: a member keeps its place, and the new ones follow. -/
def overlay (fields members : Members) : Members :=
  (members.map fun m =>
      (m.1, ((fields.find? fun f => decide (f.1 = m.1)).map Prod.snd).getD m.2)) ++
    fields.filter fun f => !decide (f.1 ∈ members.map Prod.fst)

/-- The members that hold raw answers. -/
def rawKeys : List String :=
  ["raw", "raw_card", "raw_record", "raw_detail", "raw_value"]

mutual

/-- `strip_asset_card_raw`. -/
def Json.stripRaw : Json → Json
  | .arr items => .arr (stripItems items)
  | .obj members => .obj (stripMembers members)
  | value => value

/-- The elements of an array without their raw answers. -/
def stripItems : List Json → List Json
  | [] => []
  | item :: items => item.stripRaw :: stripItems items

/-- The members of an object without the raw answers. -/
def stripMembers : List (String × Json) → List (String × Json)
  | [] => []
  | (key, value) :: members =>
      if key ∈ rawKeys then stripMembers members
      else (key, value.stripRaw) :: stripMembers members

end

theorem stripMembers_cons (key : String) (value : Json) (members : List (String × Json)) :
    stripMembers ((key, value) :: members) =
      if key ∈ rawKeys then stripMembers members
      else (key, value.stripRaw) :: stripMembers members :=
  rfl

mutual

@[simp]
theorem Json.stripRaw_stripRaw : ∀ value : Json, value.stripRaw.stripRaw = value.stripRaw
  | .null | .bool _ | .num _ | .str _ => rfl
  | .arr items => congrArg Json.arr (stripItems_stripItems items)
  | .obj members => congrArg Json.obj (stripMembers_stripMembers members)

theorem stripItems_stripItems : ∀ items : List Json,
    stripItems (stripItems items) = stripItems items
  | [] => rfl
  | item :: items =>
      congrArg₂ List.cons item.stripRaw_stripRaw (stripItems_stripItems items)

@[simp]
theorem stripMembers_stripMembers : ∀ members : List (String × Json),
    stripMembers (stripMembers members) = stripMembers members
  | [] => rfl
  | (key, value) :: members => by
      rw [stripMembers_cons]
      by_cases hraw : key ∈ rawKeys
      · rw [if_pos hraw]
        exact stripMembers_stripMembers members
      · rw [if_neg hraw, stripMembers_cons, if_neg hraw, value.stripRaw_stripRaw,
          stripMembers_stripMembers members]

end

/-! ## Documents without null -/

mutual

/-- No value of a document is null. -/
def Json.nullFree : Json → Bool
  | .null => false
  | .arr items => itemsNullFree items
  | .obj members => membersNullFree members
  | _ => true

/-- No element of an array has a null. -/
def itemsNullFree : List Json → Bool
  | [] => true
  | item :: items => item.nullFree && itemsNullFree items

/-- No member of an object has a null. -/
def membersNullFree : List (String × Json) → Bool
  | [] => true
  | (_, value) :: members => value.nullFree && membersNullFree members

end

theorem itemsNullFree_iff (items : List Json) :
    itemsNullFree items = true ↔ ∀ item ∈ items, item.nullFree = true := by
  induction items with
  | nil => simp [itemsNullFree]
  | cons item items ih => simp [itemsNullFree, ih]

theorem membersNullFree_iff (members : Members) :
    membersNullFree members = true ↔ ∀ m ∈ members, m.2.nullFree = true := by
  induction members with
  | nil => simp [membersNullFree]
  | cons m members ih => simp [membersNullFree, ih]

/-! ## Reading a member -/

@[simp]
theorem dictGet_nil (key : String) :
    dictGet [] key = .null :=
  rfl

theorem dictGet_cons (m : String × Json) (members : Members) (key : String) :
    dictGet (m :: members) key = if m.1 = key then m.2 else dictGet members key := by
  unfold dictGet
  rw [List.find?_cons]
  by_cases h : m.1 = key
  · simp [h]
  · simp [h]

theorem dictGet_of_notMem {members : Members} {key : String} (h : key ∉ members.map Prod.fst) :
    dictGet members key = .null := by
  induction members with
  | nil => rfl
  | cons m members ih =>
      rw [List.map_cons, List.mem_cons, not_or] at h
      rw [dictGet_cons, if_neg (Ne.symm h.1), ih h.2]

/-- A member that is stored is the one that is read, without its raw answers. -/
theorem dictGet_stripMembers {key : String} (hkey : key ∉ rawKeys) (members : Members) :
    dictGet (stripMembers members) key = (dictGet members key).stripRaw := by
  induction members with
  | nil => rfl
  | cons m members ih =>
      obtain ⟨name, value⟩ := m
      rw [stripMembers_cons, dictGet_cons]
      by_cases hraw : name ∈ rawKeys
      · have hne : name ≠ key := by
          rintro rfl
          exact hkey hraw
        rw [if_pos hraw, if_neg hne, ih]
      · rw [if_neg hraw, dictGet_cons]
        dsimp only
        split
        · rfl
        · exact ih

theorem map_fst_overlay (fields members : Members) :
    (overlay fields members).map Prod.fst =
      members.map Prod.fst ++
        (fields.filter fun f => !decide (f.1 ∈ members.map Prod.fst)).map Prod.fst := by
  unfold overlay
  rw [List.map_append, List.map_map]
  rfl

/-- The value that a dictionary has for a key after an update. -/
theorem dictGet_overlay (fields members : Members) (key : String) :
    dictGet (overlay fields members) key =
      if key ∈ fields.map Prod.fst then dictGet fields key else dictGet members key := by
  have hfields : ∀ k, (fields.find? fun f => decide (f.1 = k)).map Prod.snd =
      if k ∈ fields.map Prod.fst then some (dictGet fields k) else none := by
    intro k
    unfold dictGet
    cases hfind : fields.find? fun f => decide (f.1 = k) with
    | none =>
        have habsent : k ∉ fields.map Prod.fst := by
          rintro hmem
          obtain ⟨f, hf, rfl⟩ := List.mem_map.1 hmem
          simpa using List.find?_eq_none.1 hfind f hf
        rw [if_neg habsent]
        rfl
    | some f =>
        have hkey : f.1 = k := by simpa using List.find?_some hfind
        have hmem : k ∈ fields.map Prod.fst :=
          List.mem_map.2 ⟨f, List.mem_of_find?_eq_some hfind, hkey⟩
        rw [if_pos hmem]
        rfl
  unfold overlay
  generalize hnew : (fields.filter fun f => !decide (f.1 ∈ members.map Prod.fst)) = new
  have hrest : key ∉ members.map Prod.fst → dictGet new key = dictGet fields key := by
    intro habsent
    subst hnew
    unfold dictGet
    have hsame : (fun f : String × Json =>
        decide ((!decide (f.1 ∈ members.map Prod.fst)) = true ∧ decide (f.1 = key) = true)) =
        fun f => decide (f.1 = key) := by
      funext f
      by_cases hf : f.1 = key
      · subst hf
        simp only [habsent, decide_false, Bool.not_false, decide_true, and_self]
      · simp [hf]
    rw [List.find?_filter, hsame]
  clear hnew
  induction members with
  | nil =>
      rw [List.map_nil, List.nil_append, hrest (by simp), dictGet_nil]
      split
      · rfl
      · rename_i habsent
        exact dictGet_of_notMem habsent
  | cons m members ih =>
      rw [List.map_cons, List.cons_append, dictGet_cons, dictGet_cons]
      dsimp only
      by_cases hm : m.1 = key
      · rw [if_pos hm, if_pos hm, hm, hfields]
        split
        · rfl
        · rfl
      · rw [if_neg hm, if_neg hm]
        apply ih
        intro habsent
        apply hrest
        rw [List.map_cons, List.mem_cons, not_or]
        exact ⟨Ne.symm hm, habsent⟩

/-! ## Updates that are stored -/

/-- Without raw answers among them the members keep their names. -/
theorem stripMembers_eq_map {members : Members} (h : ∀ m ∈ members, m.1 ∉ rawKeys) :
    stripMembers members = members.map fun m => (m.1, m.2.stripRaw) := by
  induction members with
  | nil => rfl
  | cons m members ih =>
      obtain ⟨name, value⟩ := m
      rw [stripMembers_cons, if_neg (h _ List.mem_cons_self),
        ih fun m hm => h m (List.mem_cons_of_mem _ hm)]
      rfl

theorem notMem_rawKeys_of_mem_stripMembers {members : Members} {m : String × Json}
    (h : m ∈ stripMembers members) :
    m.1 ∉ rawKeys ∧ m.2.stripRaw = m.2 := by
  induction members with
  | nil => cases h
  | cons first members ih =>
      obtain ⟨name, value⟩ := first
      rw [stripMembers_cons] at h
      split at h
      · exact ih h
      · rename_i hraw
        rcases List.mem_cons.1 h with rfl | hmem
        · exact ⟨hraw, value.stripRaw_stripRaw⟩
        · exact ih hmem

/-- A member of an updated dictionary that has the name of a field is this field. -/
theorem mem_of_mem_overlay {fields members : Members} {m : String × Json}
    (h : m ∈ overlay fields members) (hname : m.1 ∈ fields.map Prod.fst) :
    m ∈ fields := by
  rcases List.mem_append.1 h with hold | hnew
  · obtain ⟨m', _, rfl⟩ := List.mem_map.1 hold
    dsimp only at hname ⊢
    cases hfind : fields.find? fun f => decide (f.1 = m'.1) with
    | none =>
        obtain ⟨f, hf, hkey⟩ := List.mem_map.1 hname
        exact absurd (decide_eq_true hkey) (List.find?_eq_none.1 hfind f hf)
    | some f =>
        have hkey : f.1 = m'.1 := by simpa using List.find?_some hfind
        have hmem := List.mem_of_find?_eq_some hfind
        rw [← hkey]
        exact hmem
  · exact List.mem_of_mem_filter hnew

/-- Every field is a member after an update. -/
theorem mem_map_fst_overlay {fields members : Members} {f : String × Json} (hf : f ∈ fields) :
    f.1 ∈ (overlay fields members).map Prod.fst := by
  rw [map_fst_overlay, List.mem_append]
  by_cases hold : f.1 ∈ members.map Prod.fst
  · exact .inl hold
  · refine .inr (List.mem_map.2 ⟨f, List.mem_filter.2 ⟨hf, ?_⟩, rfl⟩)
    simp only [hold, decide_false, Bool.not_false]

/-- An update that has been stored changes nothing when it is made again. -/
theorem overlay_absorb {fields : Members} (hnodup : (fields.map Prod.fst).Nodup)
    (hraw : ∀ f ∈ fields, f.1 ∉ rawKeys) (members : Members) :
    overlay fields (stripMembers (overlay fields (stripMembers members))) =
      overlay fields (stripMembers members) := by
  have hstored := fun m => @notMem_rawKeys_of_mem_stripMembers members m
  generalize stripMembers members = stored at hstored
  have hnames : ∀ m ∈ overlay fields stored, m.1 ∉ rawKeys := by
    intro m hm
    rcases List.mem_append.1 hm with hold | hnew
    · obtain ⟨m', hm', rfl⟩ := List.mem_map.1 hold
      exact (hstored m' hm').1
    · exact hraw m (List.mem_of_mem_filter hnew)
  have hcover : ∀ f ∈ fields, f.1 ∈ (overlay fields stored).map Prod.fst :=
    fun f hf => mem_map_fst_overlay hf
  have hfind : ∀ f ∈ fields, (fields.find? fun f' => decide (f'.1 = f.1)) = some f := by
    intro f hf
    cases hfound : fields.find? fun f' => decide (f'.1 = f.1) with
    | none => simpa using List.find?_eq_none.1 hfound f hf
    | some f' =>
        have hkey : f'.1 = f.1 := by simpa using List.find?_some hfound
        have hmem := List.mem_of_find?_eq_some hfound
        rw [List.inj_on_of_nodup_map hnodup hmem hf hkey]
  have hvalue : ∀ m ∈ overlay fields stored,
      ((fields.find? fun f => decide (f.1 = m.1)).map Prod.snd).getD m.2.stripRaw = m.2 := by
    intro m hm
    rcases List.mem_append.1 hm with hold | hnew
    · obtain ⟨m', hm', rfl⟩ := List.mem_map.1 hold
      dsimp only
      cases fields.find? fun f => decide (f.1 = m'.1) with
      | none => exact (hstored m' hm').2
      | some f => rfl
    · rw [hfind m (List.mem_of_mem_filter hnew)]
      rfl
  rw [stripMembers_eq_map hnames]
  generalize overlay fields stored = updated at hcover hvalue
  unfold overlay
  have hkeys : (updated.map fun m => (m.1, m.2.stripRaw)).map Prod.fst = updated.map Prod.fst := by
    rw [List.map_map]
    rfl
  have hnone : (fields.filter fun f =>
      !decide (f.1 ∈ (updated.map fun m => (m.1, m.2.stripRaw)).map Prod.fst)) = [] := by
    rw [List.filter_eq_nil_iff]
    intro f hf
    rw [hkeys]
    simp only [hcover f hf, decide_true, Bool.not_true, Bool.false_eq_true, not_false_eq_true]
  rw [hnone, List.append_nil, List.map_map]
  refine (List.map_congr_left fun m hm => ?_).trans (List.map_id updated)
  exact Prod.ext rfl (hvalue m hm)

/-- An update with the values that are there already changes nothing. -/
theorem overlay_eq_self {fields members : Members}
    (hcover : ∀ f ∈ fields, f.1 ∈ members.map Prod.fst)
    (hvalue : ∀ m ∈ members, ∀ f ∈ fields, f.1 = m.1 → f.2 = m.2) :
    overlay fields members = members := by
  unfold overlay
  have hnone : (fields.filter fun f => !decide (f.1 ∈ members.map Prod.fst)) = [] := by
    rw [List.filter_eq_nil_iff]
    intro f hf
    simp only [hcover f hf, decide_true, Bool.not_true, Bool.false_eq_true, not_false_eq_true]
  rw [hnone, List.append_nil]
  refine (List.map_congr_left fun m hm => ?_).trans (List.map_id members)
  refine Prod.ext rfl ?_
  dsimp only
  cases hfind : fields.find? fun f => decide (f.1 = m.1) with
  | none => rfl
  | some f =>
      have hkey : f.1 = m.1 := by simpa using List.find?_some hfind
      exact hvalue m hm f (List.mem_of_find?_eq_some hfind) hkey

end MpvmApp
