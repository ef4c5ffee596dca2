import CurriedScript.Proofs.Hosts
import CurriedScript.Proofs.Stopped
import Mathlib

/-!
# Smaller tables

`execute_smallerTable`: with fewer builtins a statement runs as it does with more, as
long as it does not come to a literal of one that is missing; there it fails.
-/

namespace CurriedScript

open Run

def Host.withTable (host : Host) (table : List Builtin) : Host := { host with builtins := table }

def Extends (larger table : List Builtin) : Prop :=
  ∀ name builtin, Builtin.find? table name = some builtin → Builtin.find? larger name = some builtin

def Missing (table larger : List Builtin) (name : String) : Prop :=
  name ∈ larger.map Builtin.name ∧ name ∉ table.map Builtin.name

/-! ## What tables find -/

namespace Builtin

theorem find?_eq_none_iff {table : List Builtin} {name : String} :
    find? table name = none ↔ name ∉ table.map Builtin.name := by
  simp [find?]

theorem find?_name {table : List Builtin} {name : String} {builtin : Builtin}
    (h : find? table name = some builtin) :
    builtin ∈ table ∧ builtin.name = name :=
  ⟨List.mem_of_find?_eq_some h, by simpa using List.find?_some h⟩

/-- Where each name stands once, all entries can be found. -/
theorem find?_of_mem {table : List Builtin} (hnames : (table.map Builtin.name).Nodup) {builtin : Builtin}
    (hmem : builtin ∈ table) : find? table builtin.name = some builtin := by
  cases hfound : find? table builtin.name with
  | none => exact absurd (List.mem_map_of_mem hmem) (find?_eq_none_iff.mp hfound)
  | some other =>
    obtain ⟨hother, hname⟩ := find?_name hfound
    rw [List.inj_on_of_nodup_map hnames hother hmem hname]

theorem extends_of_subset {larger table : List Builtin} (hnames : (larger.map Builtin.name).Nodup)
    (h : table ⊆ larger) : Extends larger table := by
  intro name builtin hfound
  obtain ⟨hmem, rfl⟩ := find?_name hfound
  exact find?_of_mem hnames (h hmem)

end Builtin

/-! ## The evaluator -/

def HostFunction.IgnoresTable (f : HostFunction) : Prop :=
  ∀ settings table, f.next { settings with builtins := table } = f.next settings

section
variable {host : Host} {table : List Builtin}

def Stop.missing (table larger : List Builtin) : Stop where
  error e := ∃ name, e = .unknownBuiltin name ∧ Missing table larger name
  before _ := True
  after _ := True
  later _ _ := trivial

theorem builtinNamed_stopped (htable : Extends host.builtins table) (name : String) :
    Stopped (Stop.missing table host.builtins) (builtinNamed (host.withTable table) name)
      (builtinNamed host name) := by
  refine ⟨(builtinNamed_uncounted host name).advances, fun world _ => ?_⟩
  unfold builtinNamed
  cases hsmall : Builtin.find? table name with
  | some builtin =>
    rw [htable name builtin hsmall]
    simp only [Host.withTable, hsmall]
    exact .same _ trivial
  | none =>
    simp only [Host.withTable, hsmall]
    cases hlarge : Builtin.find? host.builtins name with
    | none => exact .same _ trivial
    | some builtin =>
      obtain ⟨hmem, hname⟩ := Builtin.find?_name hlarge
      have hmissing : Missing table host.builtins name :=
        ⟨List.mem_map.mpr ⟨builtin, hmem, hname⟩, Builtin.find?_eq_none_iff.mp hsmall⟩
      exact .cut ⟨name, rfl, hmissing⟩ trivial (.refl world) (.refl world)

theorem Stopped.of_uncounted {α : Type} {m : Run α} (h : Uncounted m) :
    Stopped (Stop.missing table host.builtins) m m :=
  .refl h.advances fun _ _ => trivial

theorem hosts_stopped (hpasses : ∀ f ∈ host.functions, f.PassesErrors)
    (hignores : ∀ f ∈ host.functions, f.IgnoresTable)
    (htable : Extends host.builtins table) :
    HostsRelated (Stopped (Stop.missing table host.builtins)) (host.withTable table) host where
  sequencing := Stopped.sequencing
  countCall := .refl (countCall_advances host) fun _ _ => trivial
  builtinNamed := builtinNamed_stopped htable
  loadModule name := .of_uncounted (loadModule_uncounted host name)
  primitive primitive arguments := .of_uncounted (primitive.run_uncounted host arguments)
  functions := rfl
  function f hf :=
    (hpasses f hf).related (hignores f hf host.toSettings table)
      (fun text => .of_uncounted (write_uncounted host text)) fun count => .of_uncounted (takeInput_uncounted count)

end

/-- **A smaller table only fails where a missing builtin is reached.** A statement ends
as it does with the larger table, or it fails with the name of a builtin that only the
larger table has. All that it printed and read by then it prints and reads with the
larger table too, whether or not it ends there. Functions of the host must not look at
the table or go on after errors. -/
theorem execute_smallerTable {host : Host} {table : List Builtin} (hpasses : ∀ f ∈ host.functions, f.PassesErrors)
    (hignores : ∀ f ∈ host.functions, f.IgnoresTable) (htable : Extends host.builtins table) (env : Environment)
    (s : Statement) (world : World) :
    SameEnd Eq (execute (host.withTable table) · env s) (execute host · env s) world ∨
    ∃ name left, Missing table host.builtins name ∧
      Ends (execute (host.withTable table) · env s) world (.error (.unknownBuiltin name)) left ∧
      world.Later left ∧
      ∃ enough, ∀ fuel, enough ≤ fuel → left.Later (finalState ((execute host fuel env s).run world)) := by
  have hstopped : ∀ fuel, Stopped (Stop.missing table host.builtins) (execute (host.withTable table) fuel env s)
      (execute host fuel env s) := fun fuel =>
    (evaluator_related (hosts_stopped hpasses hignores htable) fuel).2.2.2.2 env s
  rcases sameEnd_or_stopped (fun _ _ h => execute_fuel_le _ h env s) hstopped world trivial with
    hsame | ⟨_, left, ⟨name, rfl, hmissing⟩, hstop⟩
  · exact .inl hsame
  · exact .inr ⟨name, left, hmissing, hstop⟩

/-- `{#relay} {x| {#print} x; {#add} x x;} 1;` -/
def printThenAdd : Statement :=
  let call (name : String) (arguments : List Expr) : Statement :=
    .expr (Form.application ((Form.builtin name).bare :: arguments)).bare
  let x := (Form.name "x").bare
  call "relay" [(Form.function ["x"] [call "print" [x], call "add" [x, x]]).bare, (Form.literal (.integer 1)).bare]

/-- With `relay` and `print` only it prints what it prints with all builtins, and fails
then. -/
theorem printThenAdd_smallerTable :
    let table := [⟨"relay", .supplied 0⟩, Primitive.print.builtin]
    (∀ f ∈ Host.relaying.functions, f.PassesErrors) ∧ (∀ f ∈ Host.relaying.functions, f.IgnoresTable) ∧
    Extends Host.relaying.builtins table ∧
    ∃ name left, Missing table Host.relaying.builtins name ∧
      Ends (execute (Host.relaying.withTable table) · .global printThenAdd) .start
        (.error (.unknownBuiltin name)) left ∧
      left.output = "1\n" := by
  intro table
  have hsmall : (execute (Host.relaying.withTable table) 19 .global printThenAdd).run .start =
      settled (.error (.unknownBuiltin "add")) ⟨[], "1\n", 1⟩ := by cbv
  have hlarge : (execute Host.relaying 19 .global printThenAdd).run .start =
      settled (.ok (.integer 2, .global)) ⟨[], "1\n", 1⟩ := by cbv
  have hpasses : ∀ f ∈ Host.relaying.functions, f.PassesErrors := List.forall_mem_singleton.mpr relay_passesErrors
  have hignores : ∀ f ∈ Host.relaying.functions, f.IgnoresTable := List.forall_mem_singleton.mpr fun _ _ => rfl
  have htable : Extends Host.relaying.builtins table := Builtin.extends_of_subset (by decide) (by decide)
  refine ⟨hpasses, hignores, htable, ?_⟩
  rcases execute_smallerTable hpasses hignores htable .global printThenAdd .start with
    hsame | ⟨name, left, hmissing, hends, -⟩
  · have hfails := hsame.ends (fun _ _ h => execute_fuel_le _ h _ _) ⟨19, hsmall⟩
    have hboth := hfails.unique (fun _ _ h => execute_fuel_le _ h _ _) ⟨19, hlarge⟩
    cases hboth.1
  · have hleft := (hends.unique (fun _ _ h => execute_fuel_le _ h _ _) ⟨19, hsmall⟩).2
    exact ⟨name, left, hmissing, hends, by rw [hleft]⟩

end CurriedScript
