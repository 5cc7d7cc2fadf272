/-!
Maps that remember the order in which their keys first came: lists of pairs, a key at most once.

Setting a key that is present changes its value and keeps its place.  Two views say all there is to
say about an operation: `get?`, what a key is bound to, and `keys`, in what order the keys stand.
-/

namespace Trellis

abbrev OrderedMap (κ : Type) (α : Type) := List (κ × α)

namespace OrderedMap

variable {κ α : Type} [DecidableEq κ]

def get? : OrderedMap κ α → κ → Option α
  | [], _ => none
  | entry :: rest, key => if entry.1 = key then some entry.2 else get? rest key

def contains (map : OrderedMap κ α) (key : κ) : Bool :=
  (map.get? key).isSome

def keys (map : OrderedMap κ α) : List κ :=
  map.map Prod.fst

/-- Binds `key` to `value`, in its place if it is present, else at the end. -/
def set (map : OrderedMap κ α) (key : κ) (value : α) : OrderedMap κ α :=
  match map with
  | [] => [(key, value)]
  | entry :: rest => if entry.1 = key then (entry.1, value) :: rest else entry :: set rest key value

def ofPairs (pairs : List (κ × α)) : OrderedMap κ α :=
  pairs.foldl (fun map entry => map.set entry.1 entry.2) []

/-- Whether two maps bind the same keys to the same values, in whatever order. -/
def agrees [DecidableEq α] (left right : OrderedMap κ α) : Bool :=
  (left.keys ++ right.keys).all fun key => left.get? key = right.get? key

def DistinctKeys (map : OrderedMap κ α) : Prop :=
  map.keys.Nodup

/-! ### Laws -/

@[simp] theorem get?_nil (key : κ) : get? ([] : OrderedMap κ α) key = none := rfl

theorem get?_cons (entry : κ × α) (map : OrderedMap κ α) (key : κ) :
    get? (entry :: map) key = if entry.1 = key then some entry.2 else get? map key := rfl

theorem get?_set (map : OrderedMap κ α) (key other : κ) (value : α) :
    get? (map.set key value) other = if key = other then some value else map.get? other := by
  induction map with
  | nil => simp [set, get?_cons]
  | cons entry rest ih =>
      simp only [set]
      by_cases same : entry.1 = key
      · subst same
        simp only [if_true, get?_cons]
        split <;> rfl
      · simp only [same, if_false, get?_cons, ih]
        by_cases h : key = other
        · subst h
          simp [same]
        · simp [h]

theorem get?_set_self (map : OrderedMap κ α) (key : κ) (value : α) :
    get? (map.set key value) key = some value := by
  simp [get?_set]

theorem get?_set_of_ne (map : OrderedMap κ α) {key other : κ} (value : α) (h : key ≠ other) :
    get? (map.set key value) other = map.get? other := by
  simp [get?_set, h]

theorem contains_set {map : OrderedMap κ α} {key : κ} (bound : map.contains key = true) (other : κ)
    (value : α) : (map.set other value).contains key = true := by
  rw [contains, get?_set]
  split
  · rfl
  · exact bound

theorem get?_eq_none_iff {map : OrderedMap κ α} {key : κ} : map.get? key = none ↔ key ∉ map.keys := by
  induction map with
  | nil => simp [keys]
  | cons entry rest ih =>
      rw [get?_cons]
      by_cases h : entry.1 = key
      · simp [keys, h]
      · rw [if_neg h, ih]
        simp [keys, Ne.symm h]

theorem mem_of_get? {map : OrderedMap κ α} {key : κ} {value : α} (found : map.get? key = some value) :
    (key, value) ∈ map := by
  induction map with
  | nil => cases found
  | cons entry rest ih =>
      rw [get?_cons] at found
      by_cases same : entry.1 = key
      · rw [if_pos same] at found
        cases found
        subst same
        exact List.mem_cons_self
      · rw [if_neg same] at found
        exact List.mem_cons_of_mem entry (ih found)

theorem agrees_iff [DecidableEq α] {left right : OrderedMap κ α} :
    left.agrees right = true ↔ ∀ key, left.get? key = right.get? key := by
  simp only [agrees, List.all_eq_true, List.mem_append, decide_eq_true_eq]
  constructor
  · intro same key
    by_cases present : key ∈ left.keys ∨ key ∈ right.keys
    · exact same key present
    · rw [not_or] at present
      rw [get?_eq_none_iff.2 present.1, get?_eq_none_iff.2 present.2]
  · intro same key _
    exact same key

theorem mem_set {map : OrderedMap κ α} {key name : κ} {value bound : α}
    (member : (name, bound) ∈ map.set key value) : (name = key ∧ bound = value) ∨ (name, bound) ∈ map := by
  induction map with
  | nil =>
      cases List.mem_singleton.1 member
      exact .inl ⟨rfl, rfl⟩
  | cons entry rest ih =>
      simp only [set] at member
      by_cases same : entry.1 = key
      · rw [if_pos same] at member
        rcases List.mem_cons.1 member with here | later
        · cases here
          exact .inl ⟨same, rfl⟩
        · exact .inr (List.mem_cons_of_mem _ later)
      · rw [if_neg same] at member
        rcases List.mem_cons.1 member with here | later
        · rw [here]
          exact .inr List.mem_cons_self
        · rcases ih later with added | known
          · exact .inl added
          · exact .inr (List.mem_cons_of_mem _ known)

/-- A present key keeps its place, a new one goes to the end. -/
theorem keys_set (map : OrderedMap κ α) (key : κ) (value : α) :
    (map.set key value).keys = if key ∈ map.keys then map.keys else map.keys ++ [key] := by
  induction map with
  | nil => simp [set, keys]
  | cons entry rest ih =>
      by_cases same : entry.1 = key
      · simp [set, keys, same]
      · simp only [set, same, if_false]
        change entry.1 :: keys (set rest key value) = _
        rw [ih]
        by_cases h : key ∈ keys rest
        · simp [keys] at h ⊢
          simp [h, Ne.symm same]
        · simp [keys] at h ⊢
          simp [h, Ne.symm same]

theorem eraseDups_concat (names : List κ) (name : κ) :
    (names ++ [name]).eraseDups =
      if name ∈ names then names.eraseDups else names.eraseDups ++ [name] := by
  rw [List.eraseDups_append]
  split
  · rename_i known
    have nothingNew : [name].removeAll names = [] := by
      simp [List.removeAll, known]
    rw [nothingNew, List.eraseDups_nil, List.append_nil]
  · rename_i unknown
    have isNew : [name].removeAll names = [name] := by
      simp [List.removeAll, unknown]
    rw [isNew]
    rfl

/-- Where keys stand in the order in which names first come, they still do with one name more. -/
theorem keys_set_of_eraseDups {map : OrderedMap κ α} {names : List κ}
    (keysEq : map.keys = names.eraseDups) (key : κ) (value : α) :
    (map.set key value).keys = (names ++ [key]).eraseDups := by
  rw [keys_set, eraseDups_concat, keysEq]
  simp only [List.mem_eraseDups]

theorem distinctKeys_set {map : OrderedMap κ α} (h : map.DistinctKeys) (key : κ) (value : α) :
    (map.set key value).DistinctKeys := by
  unfold DistinctKeys at h ⊢
  rw [keys_set]
  split
  · exact h
  · rename_i absent
    rw [List.nodup_append]
    exact ⟨h, by simp, by intro a ha b hb; simp at hb; subst hb; intro e; exact absent (e ▸ ha)⟩

theorem set_of_get? {map : OrderedMap κ α} {key : κ} {value : α} (found : map.get? key = some value) :
    map.set key value = map := by
  induction map with
  | nil => cases found
  | cons entry rest ih =>
      rw [get?_cons] at found
      rw [set]
      split
      · rename_i same
        rw [if_pos same] at found
        cases found
        rfl
      · rename_i other
        rw [if_neg other] at found
        rw [ih found]

theorem set_of_notMem {map : OrderedMap κ α} {key : κ} (fresh : key ∉ map.keys) (value : α) :
    map.set key value = map ++ [(key, value)] := by
  induction map with
  | nil => rfl
  | cons entry rest ih =>
      rw [keys, List.map_cons, List.mem_cons, not_or] at fresh
      rw [set, if_neg (Ne.symm fresh.1), ih fresh.2, List.cons_append]

private theorem foldl_set_of_nodup {map pairs : OrderedMap κ α}
    (distinct : DistinctKeys (map ++ pairs)) :
    pairs.foldl (fun map entry => map.set entry.1 entry.2) map = map ++ pairs := by
  induction pairs generalizing map with
  | nil =>
      rw [List.append_nil]
      rfl
  | cons entry rest ih =>
      have fresh : entry.1 ∉ map.keys := by
        rw [DistinctKeys, keys, List.map_append, List.nodup_append] at distinct
        intro member
        exact distinct.2.2 entry.1 member entry.1 List.mem_cons_self rfl
      rw [List.append_cons] at distinct
      rw [List.foldl_cons, set_of_notMem fresh, ih distinct, List.append_assoc, List.singleton_append]

theorem ofPairs_of_nodup {pairs : List (κ × α)} (distinct : (pairs.map Prod.fst).Nodup) :
    ofPairs pairs = pairs :=
  foldl_set_of_nodup distinct

end OrderedMap

end Trellis
