/-!
# Listings

A listing is what a folder holds: files and folders by name, where each folder has a listing of its
own. So the folder around an entry is always there. An entry is known by its place, the names on the
way to it. Main statement: setting what is at a place changes that place, takes away what was below
it, and leaves everything else as it was (`get?_set`).
-/

namespace ApiPages

/-- The names on the way to an entry. -/
abbrev Place := List String

/-- What is at a place. -/
inductive Entry where
  | folder
  | file (content : String)
deriving DecidableEq, Repr

/-- The files and folders in a folder, by name. Of two entries with one name, the first counts. -/
inductive Listing where
  | empty
  | file (name content : String) (others : Listing)
  | folder (name : String) (inside others : Listing)
deriving DecidableEq, Repr, Inhabited

namespace Listing

/-- What is at a place; the folder that the listing belongs to is at the place without names. -/
def get? : Listing → Place → Option Entry
  | _, [] => some .folder
  | .empty, _ :: _ => none
  | .file name content others, n :: p =>
    if n = name then (if p = [] then some (.file content) else none) else others.get? (n :: p)
  | .folder name inside others, n :: p =>
    if n = name then inside.get? p else others.get? (n :: p)

/-- The listing without what has a name. -/
def erase (n : String) : Listing → Listing
  | .empty => .empty
  | .file name content others =>
    if n = name then others.erase n else .file name content (others.erase n)
  | .folder name inside others =>
    if n = name then others.erase n else .folder name inside (others.erase n)

/-- The listing with an entry of a name in front; a folder is empty. -/
def add (n : String) : Option Entry → Listing → Listing
  | none, l => l
  | some .folder, l => .folder n .empty l
  | some (.file content), l => .file n content l

/-- The listing with something else at a place, or nothing, if the folder around the place is
there. -/
def set (e : Option Entry) : Listing → Place → Listing
  | l, [] => l
  | l, [n] => (l.erase n).add n e
  | .empty, _ :: _ :: _ => .empty
  | .file name content others, n :: m :: p =>
    if n = name then .file name content others else .file name content (set e others (n :: m :: p))
  | .folder name inside others, n :: m :: p =>
    if n = name then .folder name (set e inside (m :: p)) others
    else .folder name inside (set e others (n :: m :: p))

/-- The files of the listing, with their places. -/
def files : Listing → List (Place × String)
  | .empty => []
  | .file name content others => ([name], content) :: others.files
  | .folder name inside others => inside.files.map (fun f => (name :: f.1, f.2)) ++ others.files

@[simp] theorem get?_nil (l : Listing) : l.get? [] = some .folder := by
  cases l <;> rfl

@[simp] theorem get?_empty (n : String) (p : Place) : empty.get? (n :: p) = none :=
  rfl

/-- Below a place is something only if a folder is there. -/
theorem get?_append_cons {l : Listing} {p : Place} (h : l.get? p ≠ some .folder) (n : String)
    (q : Place) : l.get? (p ++ n :: q) = none := by
  induction l generalizing p with
  | empty =>
    cases p with
    | nil => simp at h
    | cons m p => rfl
  | file name content others ih =>
    cases p with
    | nil => simp at h
    | cons m p =>
      by_cases hm : m = name
      · simp [get?, hm]
      · simp only [get?, if_neg hm] at h
        simpa [get?, hm] using ih h
  | folder name inside others ihInside ihOthers =>
    cases p with
    | nil => simp at h
    | cons m p =>
      by_cases hm : m = name
      · simp only [get?, if_pos hm] at h
        simpa [get?, hm] using ihInside h
      · simp only [get?, if_neg hm] at h
        simpa [get?, hm] using ihOthers h

/-! ## What setting does -/

/-- What has the name is gone, and all else is as it was. -/
theorem get?_erase (n m : String) (l : Listing) (p : Place) :
    (l.erase n).get? (m :: p) = if m = n then none else l.get? (m :: p) := by
  induction l with
  | empty => simp [erase]
  | file name content others ih =>
    by_cases h : n = name <;> by_cases hm : m = n <;> simp_all [erase, get?]
  | folder name inside others _ ih =>
    by_cases h : n = name <;> by_cases hm : m = n <;> simp_all [erase, get?]

theorem get?_add_of_ne {n m : String} (h : m ≠ n) (e : Option Entry) (l : Listing) (p : Place) :
    (l.add n e).get? (m :: p) = l.get? (m :: p) := by
  match e with
  | none => rfl
  | some .folder => simp [add, get?, h]
  | some (.file _) => simp [add, get?, h]

theorem get?_add_erase (n : String) (e : Option Entry) (l : Listing) (p : Place) :
    ((l.erase n).add n e).get? (n :: p) = if p = [] then e else none := by
  match e with
  | none => simp [add, get?_erase]
  | some .folder => cases p <;> simp [add, get?]
  | some (.file _) => simp [add, get?]

/-- Setting what is at a place in a folder that is there: the place has it, nothing is below the
place, and all other places are as they were. -/
theorem get?_set (e : Option Entry) {l : Listing} {p : Place} (hp : p ≠ [])
    (h : l.get? p.dropLast = some .folder) (q : Place) :
    (l.set e p).get? q = if p <+: q then (if q = p then e else none) else l.get? q := by
  fun_induction set e l p generalizing q with
  | case1 => exact absurd rfl hp
  | case2 l n =>
    match q with
    | [] => simp
    | m :: q =>
      by_cases hm : m = n
      · subst hm; simp [get?_add_erase]
      · simp [get?_add_of_ne hm, get?_erase, hm, Ne.symm hm]
  | case3 => simp at h
  | case4 => simp [get?] at h
  | case5 name content others n m p hn ih =>
    match q with
    | [] => simp
    | k :: q =>
      have ih := ih (by simp) (by simpa [get?, hn] using h)
      by_cases hk : k = name
      · simp [get?, hk, hn]
      · simp [get?, hk, ih]
  | case6 inside others n m p ih =>
    match q with
    | [] => simp
    | k :: q =>
      have ih := ih (by simp) (by simpa [get?] using h)
      by_cases hk : k = n
      · simp [get?, hk, ih]
      · simp [get?, hk, Ne.symm hk]
  | case7 name inside others n m p hn ih =>
    match q with
    | [] => simp
    | k :: q =>
      have ih := ih (by simp) (by simpa [get?, hn] using h)
      by_cases hk : k = name
      · simp [get?, hk, hn]
      · simp [get?, hk, ih]

end Listing

end ApiPages
