import DoorAccess.CommandLine
import DoorAccess.Proofs.Text.Numeral

/-!
The flags of the command line. Each flag is looked for among all words, values included; where every
flag stands in front of its value and no value is spelled like a flag, each finds its own value, and
in which order they are given makes no difference.
-/
namespace DoorAccess.CommandLine

/-- The flags that have a value. -/
inductive Flag
  | config
  | readerPort
  | adminPort
  | adminName
deriving DecidableEq, Repr

/-- A flag with its value. -/
abbrev Given := Flag × String

namespace Flag

def word : Flag → String
  | config => "--config"
  | readerPort => "--client-port"
  | adminPort => "--admin-port"
  | adminName => "--admin-name"

theorem word_inj {flag other : Flag} : flag.word = other.word ↔ flag = other := by
  cases flag <;> cases other <;> decide

theorem forall_iff {P : Flag → Prop} :
    (∀ flag, P flag) ↔ P config ∧ P readerPort ∧ P adminPort ∧ P adminName :=
  ⟨fun all => ⟨all _, all _, all _, all _⟩, fun ⟨_, _, _, _⟩ flag => by cases flag <;> assumption⟩

instance {P : Flag → Prop} [DecidablePred P] : Decidable (∀ flag, P flag) :=
  decidable_of_iff' _ forall_iff

theorem word_ne_version (flag : Flag) : flag.word ≠ "--version" := by
  cases flag <;> decide

end Flag

/-- The words of a command line on which these flags are given. -/
def wordsOf (program : String) (given : List Given) : List String :=
  program :: given.flatMap fun g => [g.1.word, g.2]

/-- Not spelled like anything that the program looks for. -/
def IsPlain (word : String) : Prop := word ≠ "--version" ∧ ∀ flag : Flag, word ≠ flag.word

instance (word : String) : Decidable (IsPlain word) := inferInstanceAs (Decidable (_ ∧ _))

/-- No flag is given twice, and what is no flag is not spelled like one. -/
structure Proper (program : String) (given : List Given) : Prop where
  program : IsPlain program
  values : ∀ g ∈ given, IsPlain g.2
  once : (given.map Prod.fst).Nodup

theorem proper_iff {program : String} {given : List Given} :
    Proper program given ↔
      IsPlain program ∧ (∀ g ∈ given, IsPlain g.2) ∧ (given.map Prod.fst).Nodup :=
  ⟨fun ⟨program, values, once⟩ => ⟨program, values, once⟩,
    fun ⟨program, values, once⟩ => ⟨program, values, once⟩⟩

instance (program : String) (given : List Given) : Decidable (Proper program given) :=
  decidable_of_iff' _ proper_iff

/-! ### Ports -/

/-- The digits of the number, perhaps with zeros in front of them and one plus sign before these. -/
def IsPort (value : String) (p : UInt16) : Prop :=
  ∃ cs, (value.toList = cs ∨ value.toList = '+' :: cs) ∧ Text.Decimal.IsNumeral p.toNat cs

def notAPort (value : String) : Failure := ⟨"Invalid port number: " ++ value, []⟩

theorem port_eq_ok_iff {value : String} {p : UInt16} : port value = .ok p ↔ IsPort value p := by
  have within : p.toNat ≤ 65535 := Nat.le_of_lt_succ p.toNat_lt
  have reads : Text.Decimal.signed? 65535 value.toList = some p.toNat ↔ IsPort value p := by
    rw [Text.Decimal.signed?_eq_some_iff, IsPort, and_iff_right within]
  rw [← reads, port]
  split
  · next n found =>
      have small := (Text.Decimal.signed?_eq_some_iff.mp found).1
      rw [found, Except.ok.injEq, Option.some.injEq]
      constructor
      · rintro rfl
        exact (UInt16.toNat_ofNat_of_lt' (Nat.lt_succ_of_le small)).symm
      · rintro rfl
        exact UInt16.ofNat_toNat
  · next none => simp [none]

theorem port_eq_error_iff {value : String} {f : Failure} :
    port value = .error f ↔ (∀ p, ¬IsPort value p) ∧ f = notAPort value := by
  constructor
  · intro refused
    refine ⟨fun p fits => ?_, ?_⟩
    · cases (port_eq_ok_iff.mpr fits).symm.trans refused
    · rw [port] at refused
      split at refused
      · cases refused
      · cases refused
        rfl
  · rintro ⟨none, rfl⟩
    rw [port]
    split
    · next n found =>
        have taken : port value = .ok (UInt16.ofNat n) := by rw [port, found]
        exact absurd (port_eq_ok_iff.mp taken) (none _)
    · rfl

/-- The port that is given, or the usual one. -/
def portOr (usual : UInt16) : Option String → Except Failure UInt16
  | none => .ok usual
  | some value => port value

theorem portOr_eq_ok_iff {usual p : UInt16} {value? : Option String} :
    portOr usual value? = .ok p ↔
      (∀ value, value? = some value → IsPort value p) ∧ (value? = none → p = usual) := by
  cases value? with
  | none => simp [portOr, eq_comm]
  | some value => simp [portOr, port_eq_ok_iff]

theorem portOr_eq_error_iff {usual : UInt16} {value? : Option String} {f : Failure} :
    portOr usual value? = .error f ↔
      ∃ value, value? = some value ∧ (∀ p, ¬IsPort value p) ∧ f = notAPort value := by
  cases value? with
  | none => simp [portOr]
  | some value => simp [portOr, port_eq_error_iff]

/-! ### What a flag finds -/

section
variable {flag word value : String} {args : List String}

theorem valueOf_cons_of_ne (other : word ≠ flag) :
    valueOf flag (word :: args) = valueOf flag args := by
  simp [valueOf, other]

theorem valueOf_cons_self : valueOf flag (flag :: value :: args) = .ok (some value) := by
  simp [valueOf]

end

section
variable {program : String} {given : List Given} (proper : Proper program given)
include proper

theorem valueOf_wordsOf (flag : Flag) :
    valueOf flag.word (wordsOf program given) = .ok (given.lookup flag) := by
  rw [wordsOf, valueOf_cons_of_ne (proper.program.2 flag)]
  have plain := proper.values
  clear proper
  -- No value stops the search, so the first word that does is the flag itself.
  induction given with
  | nil => rfl
  | cons g given ih =>
      obtain ⟨other, value⟩ := g
      rw [List.flatMap_cons, List.cons_append, List.cons_append, List.nil_append, List.lookup_cons]
      by_cases same : flag = other
      · subst same
        simp [valueOf_cons_self]
      · have value : value ≠ flag.word := (plain _ List.mem_cons_self).2 flag
        rw [valueOf_cons_of_ne (mt Flag.word_inj.mp (Ne.symm same)), valueOf_cons_of_ne value,
          ih fun g mem => plain g (List.mem_cons_of_mem _ mem), beq_false_of_ne same]

theorem lookup_eq_some_iff {flag : Flag} {value : String} :
    given.lookup flag = some value ↔ (flag, value) ∈ given := by
  have once := proper.once
  clear proper
  induction given with
  | nil => simp
  | cons g given ih =>
      obtain ⟨other, first⟩ := g
      obtain ⟨new, once⟩ := List.nodup_cons.mp once
      rw [List.lookup_cons, List.mem_cons, Prod.mk.injEq]
      by_cases same : flag = other
      · subst same
        have later : (flag, value) ∉ given := fun mem => new (List.mem_map.mpr ⟨_, mem, rfl⟩)
        simp [later, eq_comm]
      · simpa [same, beq_false_of_ne same] using ih once

end

theorem lookup_eq_none_iff {given : List Given} {flag : Flag} :
    given.lookup flag = none ↔ flag ∉ given.map Prod.fst := by
  rw [List.lookup_eq_none_iff, List.mem_map]
  constructor
  · rintro others ⟨g, mem, rfl⟩
    simpa using others g mem
  · intro absent g mem
    rw [bne_iff_ne]
    rintro rfl
    exact absent ⟨g, mem, rfl⟩

/-! ### What the flags change -/

namespace Flag

/-- The settings have the value of the flag. The path of the file is none of the settings. -/
def Holds (value : String) (c : Config) : Flag → Prop
  | config => True
  | readerPort => IsPort value c.readerPort
  | adminPort => IsPort value c.adminPort
  | adminName => c.adminName = value

/-- What the flag names is the same in both. -/
def Keeps (c c' : Config) : Flag → Prop
  | config => True
  | readerPort => c'.readerPort = c.readerPort
  | adminPort => c'.adminPort = c.adminPort
  | adminName => c'.adminName = c.adminName

end Flag

/-- What is given has its value, and nothing else has changed. -/
structure Amends (given : List Given) (c c' : Config) : Prop where
  changed : ∀ g ∈ given, g.1.Holds g.2 c'
  kept : ∀ flag : Flag, flag ∉ given.map Prod.fst → flag.Keeps c c'
  rest : { c' with
    readerPort := c.readerPort
    adminPort := c.adminPort
    adminName := c.adminName } = c

/-- The failure tells that the value given for a port is none. -/
def Refuses (given : List Given) (flag : Flag) (f : Failure) : Prop :=
  ∃ value, (flag, value) ∈ given ∧ (∀ p, ¬IsPort value p) ∧ f = notAPort value

section
variable {program : String} {given : List Given} (proper : Proper program given)
include proper

theorem override_wordsOf (c : Config) :
    override (wordsOf program given) c = do
      let readerPort ← portOr c.readerPort (given.lookup .readerPort)
      let adminPort ← portOr c.adminPort (given.lookup .adminPort)
      return { c with
        readerPort
        adminPort
        adminName := (given.lookup .adminName).getD c.adminName } := by
  have reader : valueOf "--client-port" (wordsOf program given) = _ :=
    valueOf_wordsOf proper .readerPort
  have admin : valueOf "--admin-port" (wordsOf program given) = _ :=
    valueOf_wordsOf proper .adminPort
  have name : valueOf "--admin-name" (wordsOf program given) = _ :=
    valueOf_wordsOf proper .adminName
  rw [override, reader, admin, name]
  generalize given.lookup .readerPort = r, given.lookup .adminPort = a,
    given.lookup .adminName = n
  cases r <;> cases a <;> cases n <;> rfl

theorem amends_iff {c c' : Config} :
    Amends given c c' ↔
      portOr c.readerPort (given.lookup .readerPort) = .ok c'.readerPort ∧
      portOr c.adminPort (given.lookup .adminPort) = .ok c'.adminPort ∧
      c' = { c with
        readerPort := c'.readerPort
        adminPort := c'.adminPort
        adminName := (given.lookup .adminName).getD c.adminName } := by
  rw [portOr_eq_ok_iff, portOr_eq_ok_iff]
  constructor
  · rintro ⟨changed, kept, rest⟩
    have found {flag : Flag} {value : String} (here : given.lookup flag = some value) :=
      changed _ ((lookup_eq_some_iff proper).mp here)
    have absent {flag : Flag} (none : given.lookup flag = none) :=
      kept flag (lookup_eq_none_iff.mp none)
    have name : c'.adminName = (given.lookup .adminName).getD c.adminName := by
      cases here : given.lookup .adminName with
      | none => exact absent here
      | some value => exact found here
    refine ⟨⟨fun _ => found, absent⟩, ⟨fun _ => found, absent⟩, ?_⟩
    rw [← name]
    cases c
    cases c'
    cases rest
    rfl
  · rintro ⟨⟨readerSet, readerKept⟩, ⟨adminSet, adminKept⟩, whole⟩
    have name := congrArg Config.adminName whole
    refine ⟨?_, ?_, by rw [whole]⟩
    · rintro ⟨flag, value⟩ mem
      have found := (lookup_eq_some_iff proper).mpr mem
      cases flag with
      | config => trivial
      | readerPort => exact readerSet value found
      | adminPort => exact adminSet value found
      | adminName => exact name.trans (by rw [found, Option.getD_some])
    · intro flag absent
      have none := lookup_eq_none_iff.mpr absent
      cases flag with
      | config => trivial
      | readerPort => exact readerKept none
      | adminPort => exact adminKept none
      | adminName => exact name.trans (by rw [none, Option.getD_none])

theorem override_eq_ok_iff {c c' : Config} :
    override (wordsOf program given) c = .ok c' ↔ Amends given c c' := by
  rw [override_wordsOf proper, amends_iff proper]
  cases portOr c.readerPort (given.lookup .readerPort) with
  | error f => simp [bind, Except.bind]
  | ok p =>
      cases portOr c.adminPort (given.lookup .adminPort) with
      | error f => simp [bind, Except.bind]
      | ok q =>
          constructor
          · intro done
            cases done
            exact ⟨rfl, rfl, rfl⟩
          · rintro ⟨reader, admin, whole⟩
            cases reader
            cases admin
            exact congrArg Except.ok whole.symm

theorem refuses_iff {f : Failure} (flag : Flag) (usual : UInt16) :
    Refuses given flag f ↔ portOr usual (given.lookup flag) = .error f := by
  simp only [Refuses, portOr_eq_error_iff, lookup_eq_some_iff proper]

theorem override_eq_error_iff {c : Config} {f : Failure} :
    override (wordsOf program given) c = .error f ↔
      Refuses given .readerPort f ∨
        (∀ first, ¬Refuses given .readerPort first) ∧ Refuses given .adminPort f := by
  simp only [override_wordsOf proper, refuses_iff proper .readerPort c.readerPort,
    refuses_iff proper .adminPort c.adminPort]
  cases portOr c.readerPort (given.lookup .readerPort) with
  | error first => simp [bind, Except.bind]
  | ok p =>
      cases portOr c.adminPort (given.lookup .adminPort) with
      | error second => simp [bind, Except.bind]
      | ok q => simp [bind, Except.bind, pure, Except.pure]

theorem not_mem_wordsOf_version : "--version" ∉ wordsOf program given := by
  intro mem
  rcases List.mem_cons.mp mem with same | mem
  · exact proper.program.1 same.symm
  · obtain ⟨g, here, same⟩ := List.mem_flatMap.mp mem
    rcases List.mem_cons.mp same with flag | value
    · exact g.1.word_ne_version flag.symm
    · exact (proper.values g here).1 (List.mem_singleton.mp value).symm

/-! ### Any order -/

theorem Proper.of_perm {other : List Given} (same : other.Perm given) : Proper program other where
  program := proper.program
  values g mem := proper.values g (same.mem_iff.mp mem)
  once := (same.map Prod.fst).nodup_iff.mpr proper.once

theorem lookup_of_perm {other : List Given} (same : other.Perm given) (flag : Flag) :
    other.lookup flag = given.lookup flag := by
  ext value
  rw [lookup_eq_some_iff (proper.of_perm same), lookup_eq_some_iff proper, same.mem_iff]

theorem override_of_perm {other : List Given} (same : other.Perm given) (c : Config) :
    override (wordsOf program other) c = override (wordsOf program given) c := by
  simp only [override_wordsOf proper, override_wordsOf (proper.of_perm same),
    lookup_of_perm proper same]

theorem configure_of_perm {other : List Given} (same : other.Perm given) (d : Disk) :
    configure (wordsOf program other) d = configure (wordsOf program given) d := by
  have path : valueOf "--config" (wordsOf program given) = _ := valueOf_wordsOf proper .config
  have path' : valueOf "--config" (wordsOf program other) = _ :=
    valueOf_wordsOf (proper.of_perm same) .config
  simp only [configure, List.contains_iff_mem, not_mem_wordsOf_version proper,
    not_mem_wordsOf_version (proper.of_perm same), path, path', lookup_of_perm proper same,
    override_of_perm proper same]

/-- Where every flag is given at most once and nothing else is spelled like one, each flag finds the
value that is given for it, if there is one. Of the settings just what is named by a flag becomes
its value; if a port is none, that is the failure, and the readers' port is told first. Whichever
way the flags are ordered, the settings or the failure are the same, and so is what becomes of the
program, whatever files there are. -/
theorem flags_in_any_order (c : Config) :
    (∀ flag : Flag,
      (∀ value, valueOf flag.word (wordsOf program given) = .ok (some value) ↔
        (flag, value) ∈ given) ∧
      (valueOf flag.word (wordsOf program given) = .ok none ↔ flag ∉ given.map Prod.fst)) ∧
    (∀ c', override (wordsOf program given) c = .ok c' ↔ Amends given c c') ∧
    (∀ f, override (wordsOf program given) c = .error f ↔
      Refuses given .readerPort f ∨
        (∀ first, ¬Refuses given .readerPort first) ∧ Refuses given .adminPort f) ∧
    ∀ other : List Given, other.Perm given →
      override (wordsOf program other) c = override (wordsOf program given) c ∧
      ∀ d, configure (wordsOf program other) d = configure (wordsOf program given) d := by
  refine ⟨fun flag => ⟨fun value => ?_, ?_⟩, fun c' => override_eq_ok_iff proper,
    fun f => override_eq_error_iff proper,
    fun other same => ⟨override_of_perm proper same c, configure_of_perm proper same⟩⟩
  · rw [valueOf_wordsOf proper, Except.ok.injEq, lookup_eq_some_iff proper]
  · rw [valueOf_wordsOf proper, Except.ok.injEq, lookup_eq_none_iff]

end

/-- The name of the admin is that of a flag without its dashes, and the file is nowhere. -/
theorem flags_in_any_order_of_name_like_flag :
    let given : List Given :=
      [(.adminName, "client-port"), (.config, ""), (.readerPort, "+080")]
    let config : Config := { readerPort := 80, adminName := "client-port" }
    Proper "doorwarden" given ∧
      valueOf "--client-port" (wordsOf "doorwarden" given) = .ok (some "+080") ∧
      valueOf "--admin-port" (wordsOf "doorwarden" given) = .ok none ∧
      Amends given {} config ∧
      override (wordsOf "doorwarden" given.reverse) {} = .ok config ∧
      configure (wordsOf "doorwarden" given.reverse) .empty = .started config := by
  intro given config
  have proper : Proper "doorwarden" given := by decide
  obtain ⟨finds, amends, _, ordered⟩ := flags_in_any_order proper {}
  have done : override (wordsOf "doorwarden" given) {} = .ok config := by rfl
  obtain ⟨same, sameRun⟩ := ordered given.reverse given.reverse_perm
  refine ⟨proper, ((finds .readerPort).1 "+080").mpr (by decide),
    (finds .adminPort).2.mpr (by decide), (amends config).mp done, same.trans done, ?_⟩
  rw [sameRun]
  rfl

end DoorAccess.CommandLine
