import CurriedScript.Proofs.Sources
import Mathlib

/-!
# Builtins as capabilities

A program has no builtins but those of its host's table, wherever its values come
from (`runSources_capabilities`). So without `print` it writes nothing, and without
`read` it takes no input and runs the same on any.
-/

namespace CurriedScript

def Contract.capabilities (table : List Builtin) : Contract World where
  good world := Primitive.print.builtin ∉ table → world.output = ""
  error _ := True
  change f := Primitive.read.builtin ∉ table ∧ ∃ input, f = fun world => { world with input := input }

def Value.Granted (table : List Builtin) (v : Value) : Prop := ∀ builtin, v = .builtin builtin → builtin ∈ table

theorem granted_of_kind (table : List Builtin) {v : Value} (hkind : v.kind ≠ .builtin) : v.Granted table := by
  rintro builtin rfl
  exact absurd rfl hkind

/-- Default builtins are primitives under their own names. -/
theorem Builtin.mem_all {builtin : Builtin} (h : builtin ∈ all) :
    ∃ primitive : Primitive, builtin = primitive.builtin := by
  obtain ⟨primitive, _, rfl⟩ := List.mem_map.mp h
  exact ⟨primitive, rfl⟩

section
variable {table : List Builtin} (htable : table ⊆ Builtin.all) {name : String}
include htable

theorem granted_primitive {primitive : Primitive} (h : (Value.builtin ⟨name, .primitive primitive⟩).Granted table) :
    primitive.builtin ∈ table := by
  have hmem := h _ rfl
  obtain ⟨_, heq⟩ := Builtin.mem_all (htable hmem)
  cases heq
  exact hmem

theorem not_granted_supplied {index : Nat} : ¬ (Value.builtin ⟨name, .supplied index⟩).Granted table := by
  intro h
  obtain ⟨_, heq⟩ := Builtin.mem_all (htable (h _ rfl))
  cases heq

/-- No other builtins are made on the way, so a contract is kept that `print` and `read` keep
where they are granted. -/
theorem upheld_granted {c : Contract World} {host : Host} (hbuiltins : host.builtins ⊆ table)
    (hraised : ∀ e, Raised host (Value.Granted table) (fun _ => True) e → c.error e)
    (hcount : c.Met (fun _ => True) (countCall host))
    (hprint : Primitive.print.builtin ∈ table → ∀ line, c.Met (fun _ => True) (printLine host line))
    (hread : Primitive.read.builtin ∈ table → c.Met (fun _ => True) readLine) :
    Upheld c (Value.Granted table) (fun _ => True) host where
  data _ _ hkind := granted_of_kind table hkind
  listed builtin hlisted other hother := by
    cases hother
    exact hbuiltins hlisted
  closure _ _ _ _ := granted_of_kind table (by simp [Value.kind])
  remainder _ _ _ _ _ _ := granted_of_kind table (by simp [Value.kind])
  body _ _ _ _ _ _ := trivial
  modules _ _ _ _ _ _ _ := trivial
  raised := hraised
  countCall := hcount
  printLine _ hgranted v _ := hprint (granted_primitive htable hgranted) v.display
  readLine _ hgranted := hread (granted_primitive htable hgranted)
  supplied _ _ hsupplied := absurd hsupplied (not_granted_supplied htable)

end

section
variable (table : List Builtin)

theorem capabilities_uncounted : (Contract.capabilities table).Uncounted where
  good _ _ hworld := hworld
  change := by
    rintro _ ⟨_, _, rfl⟩ _ _
    rfl

theorem printLine_capabilities (host : Host) (line : String) (hprint : Primitive.print.builtin ∈ table) :
    (Contract.capabilities table).Met (fun _ => True) (printLine host line) := by
  refine Contract.write (fun _ => trivial) (fun _ _ hno => absurd hprint hno) ?_
  rintro _ ⟨_, _, rfl⟩ _
  rfl

theorem readLine_capabilities (hread : Primitive.read.builtin ∈ table) :
    (Contract.capabilities table).Met (fun _ => True) readLine :=
  Contract.readLine (fun _ => trivial) (fun _ _ hworld => hworld) fun _ hf => absurd hread hf.1

theorem upheld_capabilities (htable : table ⊆ Builtin.all) {host : Host} (hbuiltins : host.builtins ⊆ table) :
    Upheld (Contract.capabilities table) (Value.Granted table) (fun _ => True) host :=
  upheld_granted htable hbuiltins (fun _ _ => trivial)
    ((capabilities_uncounted table).countCall fun _ _ => trivial)
    (fun hprint line => printLine_capabilities table host line hprint) (readLine_capabilities table)

end

/-- **Builtins are capabilities.** Whatever sources run in a session with a table of
default builtins, all builtins that can be reached from a result or a name are in the
table. Without `print` there is no output. Without `read` no input is taken, and other
input changes nothing. -/
theorem runSources_capabilities {table : List Builtin} (htable : table ⊆ Builtin.all) {calls : List (Host × String)}
    (hcalls : ∀ call ∈ calls, call.1.builtins ⊆ table) (fuel : Nat) (input : List UInt8)
    {results : List (Except Halt Value)} {session : Session}
    (hrun : Session.runSources fuel calls (.start input) = (results, session)) :
    (∀ v, .ok v ∈ results ∨ session.environment.Binds v → ∀ builtin, v.Reaches (.builtin builtin) →
      builtin ∈ table) ∧
      (Primitive.print.builtin ∉ table → session.world.output = "") ∧
      (Primitive.read.builtin ∉ table → session.world.input = input ∧ ∀ other,
        Session.runSources fuel calls (.start other) =
          (results, { session with world.input := other })) := by
  have hmet : ∀ call ∈ calls,
      ((Contract.capabilities table).session (Value.Granted table)).Met (Value.All (Value.Granted table))
        (Session.runSource call.1 fuel call.2) := fun call hcall =>
    runSource_met (upheld_capabilities table htable (hcalls call hcall)) (capabilities_uncounted table)
      (fun _ _ => trivial)
      fuel fun _ _ _ _ => trivial
  have hstart : ((Contract.capabilities table).session (Value.Granted table)).good (.start input) :=
    ⟨Environment.all_global fun _ _ hkind => granted_of_kind table hkind, fun _ => rfl⟩
  obtain ⟨hvalues, _, ⟨henv, hworld⟩, hchange⟩ := runSources_met hmet hstart hrun
  refine ⟨?_, hworld, fun hread => ?_⟩
  · rintro v (hv | hv) builtin hreaches
    · exact hvalues v hv _ hreaches builtin rfl
    · exact henv v hv _ hreaches builtin rfl
  · have hother : ∀ other, Session.runSources fuel calls (.start other) =
        (results, { session with world.input := other }) := fun other =>
      hchange _ ⟨_, ⟨hread, other, rfl⟩, rfl⟩
    refine ⟨?_, hother⟩
    have hsame := hrun.symm.trans (hother input)
    exact congrArg (fun r => r.2.world.input) hsame

def throughName : List (Host × String) :=
  [({ Host.bare with builtins := [Primitive.add.builtin] },
      "let plus <- \x7b#add\x7d; let f <- \x7b x | plus x x; \x7d;"),
    ({ Host.bare with builtins := [] }, "f 2; \x7b#print\x7d 1;")]

theorem throughName_capabilities :
    let table := [Primitive.add.builtin]
    table ⊆ Builtin.all ∧ (∀ call ∈ throughName, call.1.builtins ⊆ table) ∧ ∃ session : Session,
      (∀ other, Session.runSources 9 throughName (.start other) =
        ([.ok .nothing, .error (.failure (.unknownBuiltin "print"))], { session with world.input := other })) ∧
      session.environment.Binds (.builtin Primitive.add.builtin) ∧
      ∀ v, session.environment.Binds v → ∀ builtin, v.Reaches (.builtin builtin) → builtin ∈ table := by
  intro table
  have htable : table ⊆ Builtin.all := by decide
  have hcalls : ∀ call ∈ throughName, call.1.builtins ⊆ table := by simp [throughName, table]
  have hrun : Session.runSources 9 throughName (.start []) =
      ([.ok .nothing, .error (.failure (.unknownBuiltin "print"))],
        ⟨(Environment.global.frame.bind "plus" (.builtin Primitive.add.builtin)).frame.bind "f"
            (.closure ["x"] [.expr (Form.application
              [(Form.name "plus").bare, (Form.name "x").bare, (Form.name "x").bare]).bare]
              (Environment.global.frame.bind "plus" (.builtin Primitive.add.builtin)).frame),
                ⟨[], "", 0⟩⟩) := by cbv
  obtain ⟨hvalues, -, hinput⟩ := runSources_capabilities htable hcalls 9 [] hrun
  exact ⟨htable, hcalls, _, (hinput (by decide)).2, .bind (.frame (.here _ _ _)), fun v hv => hvalues v (.inr hv)⟩

end CurriedScript
