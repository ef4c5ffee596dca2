import CurriedScript.Module.Path
import CurriedScript.Text.Split
import Mathlib.Data.List.Infix
import Mathlib.Data.List.TakeWhile

/-!
# Where modules are looked for

`resolve_components`: the path of a module goes on from the root directory with the
components of the module, and only the last name can get an extension. So the path stays
below the root if and only if the module does not climb. A module that starts at the root
of the file system is not looked for below the directory at all.
-/

namespace CurriedScript

theorem Text.split_append (separator : Char) (text more : List Char) :
    split separator (text ++ separator :: more) = split separator text ++ split separator more := by
  fun_induction split separator text with
  | case1 => simp [split]
  | case2 rest ih => simp [split, ih]
  | case3 c rest h hs ih =>
    have hlength := length_split separator rest
    simp [hs] at hlength
  | case4 c rest h piece pieces hs ih => simp [split, h, ih, hs]

theorem Text.split_of_not_mem {separator : Char} {text : List Char} (h : separator ∉ text) :
    split separator text = [text] := by
  induction text with
  | nil => rfl
  | cons c text ih =>
    simp only [List.mem_cons, not_or] at h
    rw [split, if_neg (Ne.symm h.1), ih h.2]

namespace Path

/-! ## Components -/

inductive Component where
  | root
  | parent
  | name (text : List Char)
  deriving DecidableEq

def Component.isName : Component → Bool
  | .name _ => true
  | .root | .parent => false

def component? : List Char → Option Component
  | [] | ['.'] => none
  | ['.', '.'] => some .parent
  | text => some (.name text)

def steps (path : List Char) : List Component := (Text.split '/' path).filterMap component?

def start (path : List Char) : List Component := if path.head? = some '/' then [.root] else []

def components (path : List Char) : List Component := start path ++ steps path

theorem start_of_head? {path other : List Char} (h : path.head? = other.head?) : start path = start other := by
  rw [start, start, h]

theorem start_append {path : List Char} (h : path ≠ []) (more : List Char) : start (path ++ more) = start path :=
  start_of_head? (List.head?_append_of_ne_nil path h)

theorem components_of_relative {path : List Char} (h : path.head? ≠ some '/') : components path = steps path := by
  rw [components, start, if_neg h, List.nil_append]

theorem component?_name {text : List Char} (h : text ∉ [[], ['.'], ['.', '.']]) :
    component? text = some (.name text) := by
  unfold component?
  split <;> simp_all

theorem root_not_mem_steps (path : List Char) : .root ∉ steps path := by
  intro h
  obtain ⟨text, -, htext⟩ := List.mem_filterMap.mp h
  unfold component? at htext
  split at htext <;> cases htext

theorem steps_append (path more : List Char) : steps (path ++ '/' :: more) = steps path ++ steps more := by
  rw [steps, Text.split_append, List.filterMap_append]
  rfl

theorem steps_of_not_mem {text : List Char} (h : '/' ∉ text) : steps text = (component? text).toList := by
  rw [steps, Text.split_of_not_mem h]
  cases htext : component? text <;> simp [htext]

/-- A separator at the end is no step. -/
theorem steps_separator (path : List Char) : steps (path ++ ['/']) = steps path := by
  rw [steps_append]
  exact List.append_nil _

/-- A path that does not start at the root of the file system goes on from the directory. -/
theorem components_join {path : List Char} (hpath : path.head? ≠ some '/') (directory : List Char) :
    components (join directory path) = components directory ++ components path := by
  rw [components_of_relative hpath, join, if_neg hpath]
  split
  · next hend =>
    rw [Bool.or_eq_true, List.isEmpty_iff, decide_eq_true_eq] at hend
    rcases hend with rfl | hlast
    · exact components_of_relative hpath
    · obtain ⟨front, rfl⟩ := List.getLast?_eq_some_iff.mp hlast
      rw [components, components, start_append (by simp), List.append_assoc front, List.singleton_append,
        steps_append,
        steps_separator, List.append_assoc]
  · next hend =>
    have hne : directory ≠ [] := by
      rintro rfl
      simp at hend
    rw [components, components, start_append hne, steps_append, List.append_assoc]

/-! ## Last names -/

theorem steps_dropEnd (path : List Char) : steps (dropEnd path).reverse = steps path.reverse := by
  fun_induction dropEnd path with
  | case1 rest ih => rw [ih, List.reverse_cons, steps_separator]
  | case2 rest ih =>
    rw [ih, List.reverse_cons, List.reverse_cons, List.append_assoc, List.singleton_append, steps_append]
    exact (List.append_nil _).symm
  | case3 => rfl
  | case4 => rfl

/-- No dot stands alone at the end. -/
theorem dropEnd_ne (path : List Char) : dropEnd path ≠ ['.'] ∧ ∀ rest, dropEnd path ≠ '.' :: '/' :: rest := by
  fun_induction dropEnd path with
  | case1 _ ih => exact ih
  | case2 _ ih => exact ih
  | case3 => simp
  | case4 path _ hdot halone => exact ⟨halone, hdot⟩

theorem steps_upToName (path : List Char) : steps (upToName path) = steps path := by
  rw [upToName, steps_dropEnd, List.reverse_reverse]

theorem directory_append_lastName (path : List Char) : directory path ++ lastName path = upToName path := by
  rw [directory, lastName, ← List.reverse_append, List.takeWhile_append_dropWhile, List.reverse_reverse]

theorem not_mem_lastName (path : List Char) : '/' ∉ lastName path := by
  intro h
  have hne := List.mem_takeWhile_imp (List.mem_reverse.mp h)
  simp at hne

/-- A directory ends in a separator. -/
theorem directory_cases (path : List Char) : directory path = [] ∨ ∃ front, directory path = front ++ ['/'] := by
  unfold directory
  generalize (upToName path).reverse = back
  have hnot := List.head?_dropWhile_not (· ≠ '/') back
  cases hrest : back.dropWhile (· ≠ '/') with
  | nil => exact .inl rfl
  | cons c rest =>
    rw [hrest] at hnot
    obtain rfl : c = '/' := by simpa using hnot
    exact .inr ⟨rest.reverse, List.reverse_cons⟩

theorem lastName_ne_dot (path : List Char) : lastName path ≠ ['.'] := by
  intro h
  have hback : dropEnd path.reverse = (directory path ++ ['.']).reverse := by
    rw [← h, directory_append_lastName, upToName, List.reverse_reverse]
  rcases directory_cases path with hdirectory | ⟨front, hdirectory⟩
  · rw [hdirectory] at hback
    exact (dropEnd_ne _).1 hback
  · rw [hdirectory] at hback
    exact (dropEnd_ne _).2 front.reverse (by simpa using hback)

theorem steps_directory_append (path : List Char) {name : List Char} (h : '/' ∉ name) :
    steps (directory path ++ name) = steps (directory path) ++ (component? name).toList := by
  rcases directory_cases path with hdirectory | ⟨front, hdirectory⟩
  · rw [hdirectory, List.nil_append, steps_of_not_mem h]
    rfl
  · rw [hdirectory, List.append_assoc, List.singleton_append, steps_append, steps_separator, steps_of_not_mem h]

theorem dropEnd_suffix (path : List Char) : dropEnd path <:+ path := by
  fun_induction dropEnd path with
  | case1 _ ih => exact ih.trans (List.suffix_cons _ _)
  | case2 _ ih => exact ih.trans ((List.suffix_cons _ _).trans (List.suffix_cons _ _))
  | case3 => exact List.nil_suffix
  | case4 => exact List.suffix_rfl

theorem upToName_prefix (path : List Char) : upToName path <+: path :=
  List.reverse_suffix.mp (by simpa [upToName] using dropEnd_suffix path.reverse)

theorem components_eq (path : List Char) :
    components path = start path ++ steps (directory path) ++ (component? (lastName path)).toList := by
  rw [components, ← steps_upToName, ← directory_append_lastName,
    steps_directory_append path (not_mem_lastName path),
    List.append_assoc]

/-- The last name may have got the extension, if it had none. -/
inductive Extended (extension : List Char) : List Component → List Component → Prop
  | same {way : List Component} : Extended extension way way
  | last {front : List Component} {name : List Char} : hasExtension name = false →
      Extended extension (front ++ [.name name]) (front ++ [.name (name ++ '.' :: extension)])

/-- The path is left alone, or the extension is put behind its last name. -/
theorem withExtension_cases (extension path : List Char) : withExtension extension path = path ∨
    (lastName path ∉ [[], ['.'], ['.', '.']] ∧ hasExtension (lastName path) = false ∧
      withExtension extension path = upToName path ++ '.' :: extension) := by
  unfold withExtension
  dsimp only
  split
  · exact .inl rfl
  · next hkeep =>
    simp only [Bool.or_eq_true, List.isEmpty_iff, decide_eq_true_eq, not_or, Bool.not_eq_true] at hkeep
    exact .inr ⟨by simp [hkeep, lastName_ne_dot], hkeep.2, rfl⟩

theorem head?_withExtension (extension path : List Char) : (withExtension extension path).head? = path.head? := by
  rcases withExtension_cases extension path with hsame | ⟨hname, -, hextended⟩
  · rw [hsame]
  · have hne : upToName path ≠ [] := by
      rw [← directory_append_lastName]
      refine List.append_ne_nil_of_right_ne_nil _ fun hnil => hname ?_
      simp [hnil]
    obtain ⟨more, hmore⟩ := upToName_prefix path
    rw [hextended, List.head?_append_of_ne_nil _ hne, ← List.head?_append_of_ne_nil _ hne, hmore]

theorem components_withExtension {extension : List Char} (hextension : '/' ∉ extension) (path : List Char) :
    Extended extension (components path) (components (withExtension extension path)) := by
  have hstart := start_of_head? (head?_withExtension extension path)
  rcases withExtension_cases extension path with hsame | ⟨hname, hnone, hextended⟩
  · rw [hsame]
    exact .same
  · have hpath := components_eq path
    have hslash := not_mem_lastName path
    rw [← directory_append_lastName, List.append_assoc] at hextended
    generalize lastName path = name at hname hnone hextended hpath hslash
    have hlonger : name ++ '.' :: extension ∉ [[], ['.'], ['.', '.']] := by
      cases name with
      | nil => simp at hname
      | cons c name => cases name <;> simp_all
    rw [hpath, components, hstart, hextended, steps_directory_append path (by simp [hslash, hextension]),
      component?_name hname, component?_name hlonger, ← List.append_assoc]
    exact .last hnone

/-! ## Staying below -/

/-- Nowhere on the way are there more steps up than down, and none to the root. -/
def StaysBelow (way : List Component) : Prop :=
  .root ∉ way ∧ ∀ front, front <+: way → front.count .parent ≤ front.countP Component.isName

instance (way : List Component) : Decidable (StaysBelow way) :=
  decidable_of_iff (.root ∉ way ∧ ∀ front ∈ way.inits, front.count .parent ≤ front.countP Component.isName)
    (by simp [StaysBelow, List.mem_inits])

def Below (directory path : String) : Prop :=
  ∃ way, components path.toList = components directory.toList ++ way ∧ StaysBelow way

theorem below_iff {directory path : String} {way : List Component}
    (h : components path.toList = components directory.toList ++ way) : Below directory path ↔ StaysBelow way := by
  constructor
  · rintro ⟨other, hother, hbelow⟩
    rwa [List.append_cancel_left (h.symm.trans hother)]
  · exact fun hbelow => ⟨way, h, hbelow⟩

/-- A name at the end does not climb. -/
theorem staysBelow_concat_name {way : List Component} {text : List Char} :
    StaysBelow (way ++ [.name text]) ↔ StaysBelow way := by
  have hroot : Component.root ∉ way ++ [.name text] ↔ .root ∉ way := by simp
  rw [StaysBelow, StaysBelow, hroot]
  refine and_congr_right fun _ => ⟨fun h front hfront => h front (hfront.trans (List.prefix_append _ _)), ?_⟩
  intro h front hfront
  rcases List.prefix_concat_iff.mp hfront with rfl | hfront
  · have hway := h way List.prefix_rfl
    simp only [List.count_append, List.countP_append]
    exact Nat.le_trans (by simpa using hway) (Nat.le_add_right _ _)
  · exact h front hfront

theorem Extended.staysBelow_iff {extension : List Char} {way other : List Component}
    (h : Extended extension way other) :
    StaysBelow other ↔ StaysBelow way := by
  cases h with
  | same => rfl
  | last => rw [staysBelow_concat_name, staysBelow_concat_name]

/-- **Only relative modules that do not climb are below the root.** A path takes the steps of
its module, and the last name may have got an extension. The path of a module that does not
start at the root of the file system takes them from the directory; so it is below the
directory if and only if the module does not climb. The path of one that does takes them
from that root, whatever the directory, and is below no relative directory. -/
theorem resolve_components (root module : String) :
    ∃ way, Extended sourceExtension (components module.toList) way ∧
      (module.toList.head? ≠ some '/' → components (resolve root module).toList = components root.toList ++ way ∧
        (Below root (resolve root module) ↔ StaysBelow (components module.toList))) ∧
      (module.toList.head? = some '/' → components (resolve root module).toList = way ∧
        (∀ other, resolve other module = resolve root module) ∧
        (root.toList.head? ≠ some '/' → ¬ Below root (resolve root module))) := by
  have hway : Extended sourceExtension (components module.toList)
      (components (withExtension sourceExtension module.toList)) := components_withExtension (by decide) _
  have hhead := head?_withExtension sourceExtension module.toList
  refine ⟨_, hway, fun hrelative => ?_, fun habsolute => ?_⟩
  · have hcomponents : components (resolve root module).toList =
        components root.toList ++ components (withExtension sourceExtension module.toList) := by
      rw [resolve, String.toList_ofList, components_join (hhead.trans_ne hrelative)]
    exact ⟨hcomponents, (below_iff hcomponents).trans hway.staysBelow_iff⟩
  · have habove := hhead.trans habsolute
    have hresolve : ∀ directory,
        resolve directory module = String.ofList (withExtension sourceExtension module.toList) :=
      fun directory => congrArg String.ofList (if_pos habove)
    refine ⟨by rw [hresolve, String.toList_ofList], fun other => by rw [hresolve, hresolve], ?_⟩
    rintro hrelative ⟨way, hbelow, hclear, -⟩
    have hroot : .root ∈ components (withExtension sourceExtension module.toList) := by
      rw [components, start, if_pos habove]
      exact List.mem_cons_self
    rw [hresolve, String.toList_ofList] at hbelow
    rw [hbelow, components_of_relative hrelative] at hroot
    rcases List.mem_append.mp hroot with hsteps | hway
    · exact root_not_mem_steps _ hsteps
    · exact hclear hway

/-- A name in a directory is below the root, a step up and a path from the root of the file
system are not. -/
theorem threeModules_resolve :
    Below "lib" (resolve "lib" "nested/util") ∧ ¬ Below "lib" (resolve "lib" "../util") ∧
      ¬ Below "lib" (resolve "lib" "/etc/hosts.txt") ∧
      resolve "src" "/etc/hosts.txt" = resolve "lib" "/etc/hosts.txt" := by
  obtain ⟨_, -, hnested, -⟩ := resolve_components "lib" "nested/util"
  obtain ⟨_, -, hup, -⟩ := resolve_components "lib" "../util"
  obtain ⟨_, -, -, habsolute⟩ := resolve_components "lib" "/etc/hosts.txt"
  obtain ⟨-, hsame, hnot⟩ := habsolute (by decide)
  refine ⟨(hnested (by decide)).2.mpr (by decide), ?_, hnot (by decide), hsame "src"⟩
  exact fun hbelow => absurd ((hup (by decide)).2.mp hbelow) (by decide)

/-- The path of a module replaces the directory, or climbs out of it. -/
theorem hosts_not_below :
    resolve "lib" "/etc/hosts.txt" = "/etc/hosts.txt" ∧ ¬ Below "lib" (resolve "lib" "/etc/hosts.txt") ∧
      resolve "lib" "../util" = "lib/../util.modl" ∧ ¬ Below "lib" (resolve "lib" "../util") := by
  have hup : components (resolve "lib" "../util").toList =
      components "lib".toList ++ [.parent, .name "util.modl".toList] := by decide
  refine ⟨by decide, ?_, by decide, fun hbelow => absurd ((below_iff hup).mp hbelow) (by decide)⟩
  rintro ⟨way, hway, -⟩
  cases hway

end Path

end CurriedScript
