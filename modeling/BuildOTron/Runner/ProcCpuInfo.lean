import BuildOTron.Runner.HostInfo

/-! `/proc/cpuinfo` as the kernel prints it, processor by processor, and what
`collect_cpu_info` reads off it. -/
namespace BuildOTron.Runner
open Lines

/-- What stands behind a label, a colon and a blank. -/
structure Value where
  text : List Char
  one_line : '\n' ∉ text

def Value.said (value : Value) : List Char := ' ' :: value.text

/-- What is made of it. -/
def Value.seen (value : Value) : String := .ofList (trim (lastPart ':' value.text))

theorem Value.said_line (value : Value) : '\n' ∉ value.said := by
  rw [Value.said, List.mem_cons]
  rintro (space | inside)
  · contradiction
  · exact value.one_line inside

def entry (label : String) (one_line : '\n' ∉ label.toList) (value : Value) : Entry :=
  ⟨label.toList, value.said, one_line, value.said_line⟩

theorem lastField_entry (label : String) (one_line : '\n' ∉ label.toList) (value : Value) :
    lastField ((entry label one_line value).line ':') = value.seen := by
  rw [lastField, lastPart_line]
  exact congrArg String.ofList (trim_lastPart_cons (by decide) (by decide) value.text)

abbrev CpuSection (starts : List String) := Section ':' (starts.map String.toList)

def cpuinfo {starts : List String} (sections : List (CpuSection starts)) : String :=
  .ofList (print ':' (sections.map Section.entries))

/-! ### Asking for a line -/

section
variable {π : Type} {starts : List String} {start : String} {sectionOf : π → CpuSection starts}
  {of : π → Option Value}

theorem filter_cpuinfo (listed : start ∈ starts) (nonempty : start ≠ "")
    (sections : List (CpuSection starts)) :
    (textLines (cpuinfo sections)).filter start.toList.isPrefixOf =
      sections.flatMap fun s => (s.known.map (Entry.line ':')).filter start.toList.isPrefixOf := by
  rw [textLines, cpuinfo, String.toList_ofList]
  have spelt : start.toList ≠ [] := mt String.toList_eq_nil_iff.mp nonempty
  exact filter_sections (by decide) (List.mem_map_of_mem listed) spelt sections

theorem filter_processors {found : π → List (List Char)} (listed : start ∈ starts) (nonempty : start ≠ "")
    (each : ∀ p, ((sectionOf p).known.map (Entry.line ':')).filter start.toList.isPrefixOf = found p)
    (processors : List π) : (textLines (cpuinfo (processors.map sectionOf))).filter start.toList.isPrefixOf =
      processors.flatMap found := by
  rw [filter_cpuinfo listed nonempty, List.flatMap_map]
  exact congrArg (List.flatMap · processors) (funext each)

/-- Of what the processors may have, the first. -/
theorem head?_flatMap_toList (convert : α → β) (of : π → Option α) (processors : List π) :
    (processors.flatMap fun p => ((of p).map convert).toList).head? =
      (processors.findSome? of).map convert := by
  rw [List.head?_flatMap, List.map_findSome?]
  simp only [Option.head?_toList, Function.comp_def]

/-- The one line of a processor that starts so, if there is one, has this value. -/
structure Answers (sectionOf : π → CpuSection starts) (start : String)
    (of : π → Option Value) : Prop where
  listed : start ∈ starts
  nonempty : start ≠ ""
  found : ∀ p : π,
    (((sectionOf p).known.map (Entry.line ':')).filter start.toList.isPrefixOf).map lastField =
      ((of p).map Value.seen).toList

theorem answers_of (label : String) (one_line : '\n' ∉ label.toList) (listed : start ∈ starts)
    (nonempty : start ≠ "")
    (line : ∀ p : π, ((sectionOf p).known.map (Entry.line ':')).filter start.toList.isPrefixOf =
      ((of p).map fun value => (entry label one_line value).line ':').toList) :
    Answers sectionOf start of where
  listed := listed
  nonempty := nonempty
  found p := by
    rw [line]
    cases of p with
    | none => rfl
    | some value => exact congrArg (fun seen => [seen]) (lastField_entry label one_line value)

theorem Answers.fields (answers : Answers sectionOf start of) (processors : List π) :
    ((textLines (cpuinfo (processors.map sectionOf))).filter start.toList.isPrefixOf).map lastField =
      processors.flatMap fun p => ((of p).map Value.seen).toList := by
  rw [filter_processors answers.listed answers.nonempty (fun _ => rfl), List.map_flatMap]
  exact congrArg (List.flatMap · processors) (funext answers.found)

/-- The first processor that has the line is the one that is heard. -/
theorem Answers.findLine (answers : Answers sectionOf start of) (processors : List π) :
    findLine (textLines (cpuinfo (processors.map sectionOf))) start =
      Outcome.expectSome ((processors.findSome? of).map Value.seen) := by
  have first : tryFindLine (textLines (cpuinfo (processors.map sectionOf))) start =
      (processors.findSome? of).map Value.seen := by
    rw [tryFindLine, ← List.head?_filter, ← List.head?_map, answers.fields, head?_flatMap_toList]
  rw [BuildOTron.Runner.findLine, first]

/-- A line that each of them has. -/
theorem Answers.count {of : π → Value} (answers : Answers sectionOf start (some ∘ of))
    (processors : List π) :
    ((textLines (cpuinfo (processors.map sectionOf))).filter start.toList.isPrefixOf).length =
      processors.length := by
  rw [← List.length_map lastField, answers.fields]
  simp

theorem Answers.findLine_cons {of : π → Value} (answers : Answers sectionOf start (some ∘ of))
    (first : π) (rest : List π) :
    BuildOTron.Runner.findLine (textLines (cpuinfo ((first :: rest).map sectionOf))) start =
      .ok (of first).seen := by
  rw [answers.findLine, List.findSome?_cons]
  rfl

end

/-! ### The processors of an x86 -/

def lookedForX86 : List String := ["model name", "vendor_id", "cpu family", "model\t", "microcode", "cpu MHz"]

structure Processor where
  number : Value
  vendorId : Value
  family : Value
  model : Value
  modelName : Value
  stepping : Value
  microcode : Option Value
  /-- the clock at the moment of the reading -/
  khz : Option Nat
  others : List Entry
  unasked : ∀ entry ∈ others, ∀ start ∈ lookedForX86.map String.toList,
    start.isPrefixOf (entry.line ':') = false

def mhzValue (khz : Nat) : Value where
  text := Numerals.printThousandths khz
  one_line := by
    intro member
    rcases Numerals.mem_printThousandths member with digit | point <;> contradiction

def mhzEntry (khz : Nat) : Entry := entry "cpu MHz\t\t" (by decide) (mhzValue khz)

def Processor.toSection (p : Processor) : CpuSection lookedForX86 where
  known := [entry "processor\t" (by decide) p.number, entry "vendor_id\t" (by decide) p.vendorId,
      entry "cpu family\t" (by decide) p.family, entry "model\t\t" (by decide) p.model,
      entry "model name\t" (by decide) p.modelName, entry "stepping\t" (by decide) p.stepping] ++
    (p.microcode.map (entry "microcode\t" (by decide))).toList ++
    (p.khz.map mhzEntry).toList
  others := p.others
  unasked := p.unasked

section
open Processor

theorem vendorId_answers : Answers toSection "vendor_id" (some ∘ vendorId) :=
  answers_of "vendor_id\t" (by decide) (by decide) (by decide) fun p => by
    rw [toSection]
    cases p.microcode <;> cases p.khz <;> rfl

theorem family_answers : Answers toSection "cpu family" (some ∘ Processor.family) :=
  answers_of "cpu family\t" (by decide) (by decide) (by decide) fun p => by
    rw [toSection]
    cases p.microcode <;> cases p.khz <;> rfl

theorem model_answers : Answers toSection "model\t" (some ∘ Processor.model) :=
  answers_of "model\t\t" (by decide) (by decide) (by decide) fun p => by
    rw [toSection]
    cases p.microcode <;> cases p.khz <;> rfl

theorem modelName_answers : Answers toSection "model name" (some ∘ Processor.modelName) :=
  answers_of "model name\t" (by decide) (by decide) (by decide) fun p => by
    rw [toSection]
    cases p.microcode <;> cases p.khz <;> rfl

theorem microcode_answers : Answers toSection "microcode" Processor.microcode :=
  answers_of "microcode\t" (by decide) (by decide) (by decide) fun p => by
    rw [toSection]
    cases p.microcode <;> cases p.khz <;> rfl

theorem mhz_lines (processors : List Processor) :
    (textLines (cpuinfo (processors.map toSection))).filter "cpu MHz".toList.isPrefixOf =
      processors.flatMap fun p => (p.khz.map fun khz => (mhzEntry khz).line ':').toList := by
  apply filter_processors (by decide) (by decide)
  intro p
  rw [toSection]
  cases p.microcode <;> cases p.khz <;> rfl

end

/-- What comes of a clock of so many kHz, printed in MHz. -/
def scaledKhz (khz : Nat) : UInt64 := ((Binary64.ofRat ((khz : ℚ) / 1000)).mul (.finite 1000)).toUInt64

/-- One kHz may get lost. -/
theorem scaledKhz_near {khz : Nat} (small : khz ≤ 2 ^ 51) :
    khz ≤ (scaledKhz khz).toNat + 1 ∧ (scaledKhz khz).toNat ≤ khz :=
  Binary64.scaled_back (by decide) (by decide) small

theorem mhz_field (khz : Nat) : ((mhzEntry khz).line ':').splitOn ':' =
    ["cpu MHz\t\t".toList, ' ' :: Numerals.printThousandths khz] := by
  have behind : ':' ∉ ' ' :: Numerals.printThousandths khz := by
    rw [List.mem_cons]
    rintro (space | member)
    · contradiction
    · rcases Numerals.mem_printThousandths member with digit | point <;> contradiction
  show ("cpu MHz\t\t".toList ++ ':' :: ' ' :: Numerals.printThousandths khz).splitOn ':' = _
  rw [List.splitOn_append_cons_self_of_not_mem (by decide), List.splitOn_eq_singleton behind]

theorem trim_mhz (khz : Nat) :
    trim (' ' :: Numerals.printThousandths khz) = Numerals.printThousandths khz := by
  rw [trim_cons (by decide)]
  apply trim_of_no_space
  intro c member
  rcases Numerals.mem_printThousandths member with digit | rfl
  · exact isSpace_digit digit
  · rfl

section
variable {host : Surroundings} {processors : List Processor}

theorem maxFreq_of_file {freq : Nat}
    (file : host.cpuinfoMaxFreq = some (.ofList (Nat.toDigits 10 freq ++ ['\n'])))
    (small : freq < 2 ^ 64) : host.tryFindingCpuFreq 0 = .ok (.ofNat freq) := by
  have digits : trim (Nat.toDigits 10 freq) = Nat.toDigits 10 freq := trim_of_no_space fun c member =>
    isSpace_digit (Nat.isDigit_of_mem_toDigits (by decide) (by decide) member)
  simp only [Surroundings.tryFindingCpuFreq, file, parseFreq, String.toList_ofList]
  rw [trim_concat (by decide), digits, Numerals.parseU64_toDigits small]
  rfl

/-- Without the file it is the first clock in `/proc/cpuinfo` that counts. -/
theorem maxFreq_of_cpuinfo (file : host.cpuinfoMaxFreq = none)
    (again : host.cpuinfoAgain = some (cpuinfo (processors.map Processor.toSection))) :
    host.tryFindingCpuFreq 0 = Outcome.expectSome ((processors.findSome? Processor.khz).map scaledKhz) := by
  have first : ((textLines (cpuinfo (processors.map Processor.toSection))).filter
      "cpu MHz".toList.isPrefixOf)[0]? =
        (processors.findSome? Processor.khz).map fun khz => (mhzEntry khz).line ':' := by
    rw [← List.head?_eq_getElem?, mhz_lines, head?_flatMap_toList]
  simp only [Surroundings.tryFindingCpuFreq, file, again, fileLines, Option.map_some, Outcome.expectSome_some,
    Outcome.ok_bind, first]
  cases processors.findSome? Processor.khz with
  | none => rfl
  | some khz =>
    simp only [Option.map_some, Outcome.expectSome_some, Outcome.ok_bind, mhz_field,
      List.getElem?_cons_succ, List.getElem?_cons_zero, trim_mhz, Numerals.parseF64_thousandths]
    rfl

theorem collectX86_cpuinfo {first : Processor} {rest : List Processor}
    (text : host.cpuinfo = some (cpuinfo ((first :: rest).map Processor.toSection))) :
    host.collectX86 = (do
      let microcode ← Outcome.expectSome ((first :: rest).findSome? Processor.microcode)
      let maxFreq ← host.tryFindingCpuFreq 0
      return ⟨first.modelName.seen, microcode.seen, .ofNat (rest.length + 1), first.vendorId.seen,
        first.family.seen, first.model.seen, maxFreq⟩) := by
  have cores := modelName_answers.count (first :: rest)
  simp only [Surroundings.collectX86, fileLines, text, Option.map_some, Outcome.expectSome_some,
    Outcome.ok_bind, cores, modelName_answers.findLine_cons, vendorId_answers.findLine_cons,
    family_answers.findLine_cons, model_answers.findLine_cons, microcode_answers.findLine, List.length_cons]
  cases (first :: rest).findSome? Processor.microcode <;> rfl

end

/-! ### The cores of an aarch64 -/

def lookedForAarch64 : List String := ["processor", "CPU implementer", "CPU architecture", "CPU part"]

structure Core where
  number : Value
  bogoMips : Value
  features : Value
  implementer : Value
  architecture : Value
  variant : Value
  part : Value
  revision : Value
  others : List Entry
  unasked : ∀ entry ∈ others, ∀ start ∈ lookedForAarch64.map String.toList,
    start.isPrefixOf (entry.line ':') = false

def Core.toSection (core : Core) : CpuSection lookedForAarch64 where
  known := [entry "processor\t" (by decide) core.number, entry "BogoMIPS\t" (by decide) core.bogoMips,
    entry "Features\t" (by decide) core.features, entry "CPU implementer\t" (by decide) core.implementer,
    entry "CPU architecture" (by decide) core.architecture, entry "CPU variant\t" (by decide) core.variant,
    entry "CPU part\t" (by decide) core.part, entry "CPU revision\t" (by decide) core.revision]
  others := core.others
  unasked := core.unasked

theorem number_answers : Answers Core.toSection "processor" (some ∘ Core.number) :=
  answers_of "processor\t" (by decide) (by decide) (by decide) fun _ => rfl

theorem implementer_answers : Answers Core.toSection "CPU implementer" (some ∘ Core.implementer) :=
  answers_of "CPU implementer\t" (by decide) (by decide) (by decide) fun _ => rfl

theorem architecture_answers : Answers Core.toSection "CPU architecture" (some ∘ Core.architecture) :=
  answers_of "CPU architecture" (by decide) (by decide) (by decide) fun _ => rfl

theorem part_answers : Answers Core.toSection "CPU part" (some ∘ Core.part) :=
  answers_of "CPU part\t" (by decide) (by decide) (by decide) fun _ => rfl

theorem collectAarch64_cpuinfo {host : Surroundings} {first : Core} {rest : List Core}
    (text : host.cpuinfo = some (cpuinfo ((first :: rest).map Core.toSection))) :
    host.collectAarch64 = (do
      let modelName ← host.modelNameOf
      let freq ← Outcome.expectSome host.cpuinfoMaxFreq
      let maxFreq ← parseFreq freq
      return ⟨modelName, "", .ofNat (rest.length + 1), vendorName first.implementer.seen,
        first.architecture.seen, first.part.seen, maxFreq⟩) := by
  have cores := number_answers.count (first :: rest)
  simp only [Surroundings.collectAarch64, fileLines, text, Option.map_some, Outcome.expectSome_some,
    Outcome.ok_bind, cores, implementer_answers.findLine_cons, architecture_answers.findLine_cons,
    part_answers.findLine_cons, List.length_cons]

/-! ### Memory and name -/

def meminfo (total free available : Value) (more : List Entry) : String :=
  .ofList (printEntries ':' ([entry "MemTotal" (by decide) total, entry "MemFree" (by decide) free,
    entry "MemAvailable" (by decide) available] ++ more))

theorem meminfo_lines (total free available : Value) (more : List Entry) :
    ∃ rest, textLines (meminfo total free available more) = (entry "MemTotal" (by decide) total).line ':' ::
      (entry "MemFree" (by decide) free).line ':' ::
      (entry "MemAvailable" (by decide) available).line ':' :: rest := by
  have split := splitOn_printEntries (by decide : ':' ≠ '\n') ([entry "MemTotal" (by decide) total,
    entry "MemFree" (by decide) free, entry "MemAvailable" (by decide) available] ++ more) []
  rw [List.append_nil] at split
  rw [textLines, meminfo, String.toList_ofList, split]
  exact ⟨_, rfl⟩

theorem collectMemInfo_meminfo {host : Surroundings} {total free available : Value} {more : List Entry}
    (text : host.meminfo = some (meminfo total free available more)) :
    host.collectMemInfo = .ok ⟨total.seen, available.seen⟩ := by
  obtain ⟨rest, memLines⟩ := meminfo_lines total free available more
  simp only [Surroundings.collectMemInfo, fileLines, text, Option.map_some, Outcome.expectSome_some,
    Outcome.ok_bind, memLines, List.getElem?_cons_zero, List.getElem?_cons_succ, lastField_entry]
  rfl

theorem hostname_bytes {host : Surroundings} {name : String} {behind : List UInt8}
    (zero : 0 ∉ Json.utf8 name) (bytes : host.hostnameBytes = some (Json.utf8 name ++ 0 :: behind)) :
    host.hostname = .ok name := by
  have stop : (Json.utf8 name ++ 0 :: behind).findIdx? (· = 0) = some (Json.utf8 name).length := by
    rw [List.findIdx?_append, List.findIdx?_eq_none_iff.mpr]
    · simp [List.findIdx?_cons]
    · intro b member
      simpa using fun same : b = 0 => zero (same ▸ member)
  simp only [Surroundings.hostname, bytes, Outcome.expectSome_some, Outcome.ok_bind, stop, List.take_left,
    Json.textOf_utf8]

end BuildOTron.Runner
