/-
Clustering.Vagrant.Vagrantfile — which settings Vagrant gets back.

The file is read piece by piece: code stands for itself, a text between
quotes is given back exactly when it is `Plain`, texts of a list without
quotes and a `null` between quotes never are, and a script comes back
with a line break behind it. With `sound_vagrantFile` and with what the
builders unbox (`Given`) this settles which settings a Vagrantfile keeps
(`givenBack_iff`).
-/
import Clustering.Vagrant.Emitted

namespace Clustering.Vagrant

open Ruby

/-! ## Reading pieces -/

/-- The texts of a piece are read as they are. -/
def Piece.Legible : Piece → Prop
  | .quoted value => Plain value.toList
  | .null => False
  | .bare _ => False
  | _ => True

def Legible (ps : List Piece) : Prop := ∀ p ∈ ps, p.Legible

variable {L : List (List Token)} {line toks : List Token} {more : List (List Token)}

theorem run_ordinary {text : List Char} (h : text.all ordinary = true) : ∀ line,
    State.run ⟨L, line, .code 0⟩ text = some ⟨L, line ++ text.map .char, .code 0⟩ := by
  induction text with
  | nil =>
    intro line
    simp
  | cons c cs ih =>
    intro line
    simp only [List.all_cons, Bool.and_eq_true] at h
    simp [State.step, Mode.step, (ordinary_step h.1).1, State.after, Effect.put, ih h.2]

theorem unix_ordinary {text : List Char} (h : text.all ordinary = true) :
    text.all (· != '\r') = true := by
  rw [List.all_eq_true] at h ⊢
  intro c hc
  simpa using (ordinary_step (h c hc)).2

theorem reads_ordinary {text : List Char} (h : text.all ordinary = true) (rest : List Char)
    {lines : List (List Token)} :
    Reads ⟨L, line, .code 0⟩ (unixLines (text ++ rest)) lines ↔
      Reads ⟨L, line ++ text.map .char, .code 0⟩ (unixLines rest) lines := by
  rw [unixLines_text (unix_ordinary h), reads_of_run (run_ordinary h line)]

theorem reads_piece {p : Piece} (hp : p.Proper) (hnull : p ≠ .null) (rest : List Char) :
    Reads ⟨L, line, .code 0⟩ (unixLines (p.text ++ rest))
        (L ++ (line ++ (p.tokens ++ toks)) :: more) ↔
      p.Legible ∧ Reads ⟨L, line ++ p.tokens, .code 0⟩ (unixLines rest)
        (L ++ (line ++ (p.tokens ++ toks)) :: more) := by
  cases p with
  | code text =>
    simp only [Piece.text, Piece.Legible, Piece.tokens, true_and]
    exact reads_ordinary hp rest
  | number n =>
    simp only [Piece.text, Piece.Legible, Piece.tokens, true_and]
    exact reads_ordinary (number_all (by decide) n (by decide)) rest
  | quoted value =>
    have htext : (Piece.quoted value).text ++ rest = '"' :: (value.toList ++ '"' :: rest) := by
      simp [Piece.text]
    rw [htext, unixLines_cons (by decide), unixLines_append (by decide),
      unixLines_cons (by decide)]
    exact reads_quoted value.toList (unixLines rest)
  | null => exact absurd rfl hnull
  | bare values =>
    simp only [Piece.Legible, false_and, iff_false]
    obtain ⟨v, w, vs, rfl⟩ : ∃ v w vs, values = v :: w :: vs := by
      rcases values with _ | ⟨v, _ | ⟨w, vs⟩⟩
      · simp [Piece.Proper] at hp
      · simp [Piece.Proper] at hp
      · exact ⟨v, w, vs, rfl⟩
    have htext : ∃ cs, (Piece.bare (v :: w :: vs)).text ++ rest = v.toList ++ ',' :: cs := by
      simp [Piece.text, List.intercalate_cons_cons]
    have htokens : ∃ ts, (Piece.bare (v :: w :: vs)).tokens ++ toks = .str v.toList :: ts := by
      simp [Piece.tokens, List.intercalate_cons_cons]
    obtain ⟨cs, hcs⟩ := htext
    obtain ⟨ts, hts⟩ := htokens
    rw [hcs, hts, unixLines_append (by decide), unixLines_cons (by decide)]
    exact not_reads_bare v.toList (unixLines cs)

theorem reads_pieces {ps : List Piece} (hps : ∀ p ∈ ps, p.Proper) (hnull : .null ∉ ps)
    (rest : List Char) :
    ∀ line, Reads ⟨L, line, .code 0⟩ (unixLines (ps.flatMap Piece.text ++ rest))
        (L ++ (line ++ (ps.flatMap Piece.tokens ++ toks)) :: more) ↔
      Legible ps ∧ Reads ⟨L, line ++ ps.flatMap Piece.tokens, .code 0⟩ (unixLines rest)
        (L ++ (line ++ (ps.flatMap Piece.tokens ++ toks)) :: more) := by
  induction ps with
  | nil =>
    intro line
    simp [Legible]
  | cons p ps ih =>
    intro line
    rw [List.mem_cons, not_or] at hnull
    obtain ⟨hhead, htail⟩ := hnull
    have hih := ih (fun q hq => hps q (List.mem_cons_of_mem _ hq)) htail (line ++ p.tokens)
    simp only [List.append_assoc] at hih
    simp only [List.flatMap_cons, List.append_assoc, Legible, List.forall_mem_cons]
    rw [reads_piece (hps p List.mem_cons_self) (Ne.symm hhead), hih, and_assoc]
    rfl

/-! ## Reading lines -/

/-- The value of a setting at the end of a line is read with `ending`
behind it. -/
def Tail.Legible (ending : List Char) : Tail → Prop
  | .script value => ending = ['\n'] ∧ Body "SHELL".toList value.toList
  | _ => True

theorem reads_break (rest : List Char) {lines : List (List Token)} :
    Reads ⟨L, line, .code 0⟩ (unixLines ('\n' :: rest)) lines ↔
      Reads ⟨L ++ [line], [], .code 0⟩ (unixLines rest) lines := by
  have hrun : State.run ⟨L, line, .code 0⟩ ['\n'] = some ⟨L ++ [line], [], .code 0⟩ := by
    simp [State.step, Mode.step, codeStep, State.after, Effect.endLine]
  rw [unixLines_cons (by decide)]
  exact reads_of_run hrun

theorem hereText_shell : HereText "<<-SHELL\n".toList "    ".toList "SHELL".toList
    ("<<-SHELL".toList.map .char) :=
  ⟨by decide +kernel, by decide, by decide, List.all_eq_true.mp (by decide +kernel),
    List.all_eq_true.mp (by decide +kernel), by decide⟩

theorem script_legible (value : String) (ending : List Char) :
    (Tail.script value).Legible ending ↔
      ending = ['\n'] ∧ Body "SHELL".toList value.toList :=
  Iff.rfl

theorem script_text (value : String) (rest : List Char) :
    (Tail.script value).text ++ '\n' :: rest = "<<-SHELL\n".toList ++
      (value.toList ++ '\n' :: ("    ".toList ++ "SHELL".toList ++ '\n' :: rest)) := by
  have hfoot : "\n    SHELL".toList = '\n' :: ("    ".toList ++ "SHELL".toList) := by
    decide +kernel
  have htext : (Tail.script value).text =
      "<<-SHELL\n".toList ++ value.toList ++ "\n    SHELL".toList := by
    unfold Tail.text
    rfl
  rw [htext, hfoot]
  simp only [List.append_assoc, List.cons_append]

theorem script_tokens (value : String) (ending : List Char) :
    (Tail.script value).tokens ending =
      "<<-SHELL".toList.map .char ++ [.heredoc (value.toList ++ ending)] := by
  unfold Tail.tokens
  rfl

theorem code_tokens (value : String) (ending : List Char) :
    (Tail.code value).tokens ending = codeTokens value := by
  unfold Tail.tokens
  rfl

theorem reads_script (value : String) {ending : List Char} (hend : ending = [] ∨ ending = ['\n'])
    (rest : List Char) :
    Reads ⟨L, line, .code 0⟩ (unixLines ((Tail.script value).text ++ '\n' :: rest))
        (L ++ (line ++ (Tail.script value).tokens ending) :: more) ↔
      (Tail.script value).Legible ending ∧
        Reads ⟨L ++ [line ++ (Tail.script value).tokens ending], [], .code 0⟩ (unixLines rest)
          (L ++ (line ++ (Tail.script value).tokens ending) :: more) := by
  have hmem : 'S' ∈ "SHELL".toList := by decide +kernel
  rw [script_text, script_tokens, script_legible]
  obtain rfl | rfl := hend
  · rw [List.append_nil]
    refine iff_of_false (hereText_shell.not_reads_alone hmem rfl) ?_
    rintro ⟨⟨h, -⟩, -⟩
    cases h
  · rw [hereText_shell.reads hmem rfl, and_iff_right (rfl : ['\n'] = ['\n'])]

theorem reads_tail {t : Tail} (ht : t.OneLine) {ending : List Char}
    (hend : ending = [] ∨ ending = ['\n']) (rest : List Char) :
    Reads ⟨L, line, .code 0⟩ (unixLines (t.text ++ '\n' :: rest))
        (L ++ (line ++ t.tokens ending) :: more) ↔
      t.Legible ending ∧ Reads ⟨L ++ [line ++ t.tokens ending], [], .code 0⟩ (unixLines rest)
        (L ++ (line ++ t.tokens ending) :: more) := by
  cases t with
  | none =>
    have htokens : line ++ Tail.none.tokens ending = line := List.append_nil line
    rw [htokens]
    exact (reads_break rest).trans (and_iff_right trivial).symm
  | code value =>
    obtain ⟨ts, hts⟩ := ht
    have htokens : codeTokens value = ts := by simp [codeTokens, hts]
    have hvalue : (Tail.code value).text = value.toList := rfl
    rw [code_tokens, htokens, hvalue, unixLines_append_newline,
      reads_of_run (run_line L line hts)]
    exact (and_iff_right trivial).symm
  | script value => exact reads_script value hend rest

/-- What is given back of a line. -/
structure Line.Legible (ending : List Char) (l : Line) : Prop where
  pieces : Vagrant.Legible l.pieces
  tail : l.tail.Legible ending

theorem reads_line {l : Line} (hl : ∀ p ∈ l.pieces, p.Proper) (hnull : .null ∉ l.pieces)
    (ht : l.tail.OneLine)
    {ending : List Char} (hend : ending = [] ∨ ending = ['\n']) (rest : List Char) :
    Reads ⟨L, [], .code 0⟩ (unixLines (l.text ++ '\n' :: rest))
        (L ++ l.tokens ending :: more) ↔
      l.Legible ending ∧ Reads ⟨L ++ [l.tokens ending], [], .code 0⟩ (unixLines rest)
        (L ++ l.tokens ending :: more) := by
  have htokens : l.tokens ending =
      [] ++ (l.pieces.flatMap Piece.tokens ++ l.tail.tokens ending) := rfl
  have hlegible : l.Legible ending ↔ Vagrant.Legible l.pieces ∧ l.tail.Legible ending :=
    ⟨fun h => ⟨h.pieces, h.tail⟩, fun h => ⟨h.1, h.2⟩⟩
  rw [Line.text, List.append_assoc, htokens, reads_pieces hl hnull, hlegible, and_assoc,
    List.nil_append, List.nil_append, reads_tail ht hend]

theorem reads_lines {ls : List Line} (hls : ∀ l ∈ ls, ∀ p ∈ l.pieces, p.Proper)
    (hnull : ∀ l ∈ ls, .null ∉ l.pieces) (hts : ∀ l ∈ ls, l.tail.OneLine) {ending : List Char}
    (hend : ending = [] ∨ ending = ['\n']) :
    ∀ L, Reads ⟨L, [], .code 0⟩ (unixLines (ls.flatMap fun l => l.text ++ ['\n']))
        (L ++ ls.map (Line.tokens ending)) ↔ ∀ l ∈ ls, l.Legible ending := by
  induction ls with
  | nil =>
    intro L
    simp [Reads, unixLines, State.finish]
  | cons l ls ih =>
    intro L
    have hih := ih (fun l' hl' => hls l' (List.mem_cons_of_mem _ hl'))
      (fun l' hl' => hnull l' (List.mem_cons_of_mem _ hl'))
      (fun l' hl' => hts l' (List.mem_cons_of_mem _ hl')) (L ++ [l.tokens ending])
    have htext : (l :: ls).flatMap (fun l => l.text ++ ['\n']) =
        l.text ++ '\n' :: ls.flatMap fun l => l.text ++ ['\n'] := by
      simp
    rw [htext, List.map_cons, reads_line (hls l List.mem_cons_self) (hnull l List.mem_cons_self)
      (hts l List.mem_cons_self) hend,
      List.forall_mem_cons, ← hih, List.append_assoc, List.singleton_append]

/-! ## What is given back -/

/-- Read as Ruby, the text is the blocks and lines that were written, and
every setting is read as its text, a script with `ending` behind it. No
text is read for a setting that is `null`. -/
structure ReadBack (ending : List Char) (file : Node Line) (text : String) : Prop where
  given : ∀ l ∈ file.lines, .null ∉ l.pieces
  oneLine : ∀ l ∈ file.lines, l.tail.OneLine
  reads : readFile text = some [file.map (Line.tokens ending)]

/-- There is a file, and it gives back the settings. -/
def GivenBack (ending : List Char) (config : VagrantEnvironmentConfig) : Prop :=
  ∃ file text, vagrantFile config = some file ∧
    createVagrantFileContent config = some text ∧ ReadBack ending file text

/-- A setting at the end of its line. -/
def Tail.Good (ending : List Char) : Tail → Prop
  | .none => True
  | .code value => Code value.toList
  | .script value => ending = ['\n'] ∧ Body "SHELL".toList value.toList

structure Line.Good (ending : List Char) (l : Line) : Prop where
  pieces : Vagrant.Legible l.pieces
  tail : l.tail.Good ending

theorem tail_good_iff (ending : List Char) (t : Tail) :
    t.Good ending ↔ t.OneLine ∧ t.Statement ∧ t.Legible ending := by
  cases t with
  | none => simp [Tail.Good, Tail.OneLine, Tail.Statement, Tail.Legible]
  | script value => simp [Tail.Good, Tail.OneLine, Tail.Statement, Tail.Legible]
  | code value =>
    have htokens : ∀ ts, (State.start.run (unixLines (value.toList ++ ['\n']))).bind State.finish =
        some [ts] → codeTokens value = ts := by
      intro ts hts
      simp [codeTokens, hts]
    simp only [Tail.Good, Tail.OneLine, Tail.Statement, Tail.Legible, and_true]
    constructor
    · rintro ⟨ts, hts, hkind, hsolid⟩
      refine ⟨⟨ts, hts⟩, ?_⟩
      rw [htokens ts hts]
      exact ⟨hkind, hsolid⟩
    · rintro ⟨⟨ts, hts⟩, hstatement⟩
      rw [htokens ts hts] at hstatement
      exact ⟨ts, hts, hstatement.1, hstatement.2⟩

theorem readBack_lines {ending : List Char} (hend : ending = [] ∨ ending = ['\n'])
    {file : Node Line} (hsound : Sound file) :
    ReadBack ending file (render file.lines) ↔ ∀ l ∈ file.lines, l.Good ending := by
  have hall : Node.allLines [file.map (Line.tokens ending)] =
      file.lines.map (Line.tokens ending) := by
    simp [Node.allLines, Node.lines_map]
  have hshaped : Node.AllShaped kind [file.map (Line.tokens ending)] ↔
      ∀ l ∈ file.lines, l.tail.Statement := by
    rw [← hsound.shaped ending, ← Node.shaped_map]
    simp [Node.AllShaped]
  have hreads : (∀ l ∈ file.lines, .null ∉ l.pieces) → (∀ l ∈ file.lines, l.tail.OneLine) →
      (readLines (render file.lines) = some (file.lines.map (Line.tokens ending)) ↔
        ∀ l ∈ file.lines, l.Legible ending) := by
    intro hnull hone
    have hlines := reads_lines hsound.proper hnull hone hend []
    rw [List.nil_append] at hlines
    rw [← hlines, readLines, render, String.toList_ofList]
    rfl
  constructor
  · rintro ⟨hnull, hone, hread⟩ l hl
    obtain ⟨hlines, hshape⟩ := readFile_eq_some_iff.mp hread
    rw [hall] at hlines
    have hlegible := (hreads hnull hone).mp hlines l hl
    exact ⟨hlegible.pieces, (tail_good_iff ending l.tail).mpr
      ⟨hone l hl, hshaped.mp hshape l hl, hlegible.tail⟩⟩
  · intro hgood
    have htail := fun l hl => (tail_good_iff ending _).mp (hgood l hl).tail
    have hnull : ∀ l ∈ file.lines, .null ∉ l.pieces := fun l hl hmem =>
      (hgood l hl).pieces .null hmem
    refine ⟨hnull, fun l hl => (htail l hl).1, readFile_eq_some_iff.mpr ⟨?_, ?_⟩⟩
    · rw [hall]
      exact (hreads hnull fun l hl => (htail l hl).1).mpr
        fun l hl => ⟨(hgood l hl).pieces, (htail l hl).2.2⟩
    · exact hshaped.mpr fun l hl => (htail l hl).2.1

theorem givenBack_lines {ending : List Char} (hend : ending = [] ∨ ending = ['\n'])
    (config : VagrantEnvironmentConfig) :
    GivenBack ending config ↔
      ∃ file, vagrantFile config = some file ∧ ∀ l ∈ file.lines, l.Good ending := by
  constructor
  · rintro ⟨file, text, hfile, htext, hread⟩
    have hrender : render file.lines = text := by
      simpa [createVagrantFileContent, hfile] using htext
    rw [← hrender, readBack_lines hend (sound_vagrantFile hfile)] at hread
    exact ⟨file, hfile, hread⟩
  · rintro ⟨file, hfile, hgood⟩
    exact ⟨file, _, hfile, by rw [createVagrantFileContent, hfile]; rfl,
      (readBack_lines hend (sound_vagrantFile hfile)).mpr hgood⟩

/-! ## Settings that are not null -/

def VagrantNetworkConfig.Given : VagrantNetworkConfig → Prop
  | .privateNetwork x => x.dhcp.isSome = true ∧ x.autoConfig.isSome = true
  | .portForwarding x => x.protocol.isSome = true ∧ x.autoCorrect.isSome = true
  | .publicNetwork x =>
    x.useDhcpAssignedDefaultRoute.isSome = true ∧ x.autoConfig.isSome = true

def SyncedFolderClass.Given : SyncedFolderClass → Prop
  | .nfs nfsExport nfsUdp nfsVersion =>
    nfsExport.isSome = true ∧ nfsUdp.isSome = true ∧ nfsVersion.isSome = true
  | _ => True

structure VagrantSyncedFolderConfig.Given (x : VagrantSyncedFolderConfig) : Prop where
  create : x.create.isSome = true
  disabled : x.disabled.isSome = true
  folderClass : x.folderClass.Given

def VagrantProviderConfig.Given (x : VagrantProviderConfig) : Prop :=
  ∀ name ∈ x.name, name ≠ "" →
    x.guiMode.isSome = true ∧ x.memory.isSome = true ∧ x.cpus.isSome = true

def ProvisionerClass.Given : ProvisionerClass → Prop
  | .file _ => True
  | .shell x => x.binary.isSome = true ∧ x.privileged.isSome = true ∧ x.keepColor.isSome = true

structure VagrantProvisionerConfig.Given (x : VagrantProvisionerConfig) : Prop where
  run : x.run.isSome = true
  preserveOrder : x.preserveOrder.isSome = true
  provisionerClass : x.provisionerClass.Given

/-- What the builders unbox, or call a method of, is there. -/
structure VagrantVmConfig.Given (x : VagrantVmConfig) : Prop where
  bootTimeout : x.bootTimeout.isSome = true
  boxCheckUpdate : x.boxCheckUpdate.isSome = true
  boxDownloadInsecure : x.boxDownloadInsecure.isSome = true
  boxDownloadLocationTrusted : x.boxDownloadLocationTrusted.isSome = true
  gracefulHaltTimeout : x.gracefulHaltTimeout.isSome = true
  networks : ∀ n ∈ x.vagrantNetworkConfigs, n.Given
  provider : ∃ p, x.provider = some p ∧ p.Given
  provisioners : ∀ p ∈ x.vagrantProvisionerConfigs, p.Given
  syncedFolders : ∀ f ∈ x.vagrantSyncedFolderConfigs, f.Given
  usablePortRange : x.usablePortRange.isSome = true

def VagrantEnvironmentConfig.Given (config : VagrantEnvironmentConfig) : Prop :=
  ∀ vm ∈ config.vmConfigs, vm.Given

theorem isSome_network (c : VagrantNetworkConfig) :
    (createVmNetworkConfig c).isSome = true ↔ c.Given := by
  cases c with
  | privateNetwork x =>
    cases hdhcp : x.dhcp <;> cases hauto : x.autoConfig <;>
      simp [createVmNetworkConfig, createVmNetworkPrivateNetworkConfig,
        VagrantNetworkConfig.Given, hdhcp, hauto]
  | portForwarding x =>
    cases hprotocol : x.protocol <;> cases hauto : x.autoCorrect <;>
      simp [createVmNetworkConfig, createVmNetworkPortForwardingConfig,
        VagrantNetworkConfig.Given, hprotocol, hauto]
  | publicNetwork x =>
    cases hdhcp : x.useDhcpAssignedDefaultRoute <;> cases hauto : x.autoConfig <;>
      simp [createVmNetworkConfig, createVmNetworkPublicNetworkConfig,
        VagrantNetworkConfig.Given, hdhcp, hauto]

theorem isSome_nfs (c : SyncedFolderClass) : (nfsPieces c).isSome = true ↔ c.Given := by
  cases c with
  | nfs nfsExport nfsUdp nfsVersion =>
    cases nfsExport <;> cases nfsUdp <;> cases nfsVersion <;>
      simp [nfsPieces, createVmSyncedFolderNfsConfig, SyncedFolderClass.Given]
  | rsync => exact iff_of_true rfl trivial
  | virtualBox => exact iff_of_true rfl trivial

theorem isSome_syncFolder (c : VagrantSyncedFolderConfig) :
    (createVmSyncFolderConfig c).isSome = true ↔ c.Given := by
  have hgiven : c.Given ↔ c.create.isSome = true ∧ c.disabled.isSome = true ∧
      (nfsPieces c.folderClass).isSome = true := by
    rw [isSome_nfs]
    exact ⟨fun h => ⟨h.create, h.disabled, h.folderClass⟩, fun h => ⟨h.1, h.2.1, h.2.2⟩⟩
  rw [hgiven, createVmSyncFolderConfig]
  cases c.create <;> cases c.disabled <;> cases nfsPieces c.folderClass <;> simp

theorem isSome_provider (c : VagrantProviderConfig) :
    (createVmProviderConfig c).isSome = true ↔ c.Given := by
  unfold createVmProviderConfig VagrantProviderConfig.Given
  cases hname : c.name with
  | none => simp
  | some name =>
    by_cases h : name = ""
    · simp [h]
    · cases hgui : c.guiMode <;> cases hmemory : c.memory <;> cases hcpus : c.cpus <;> simp [h]

theorem isSome_shell (c : VagrantProvisionerShellConfig) :
    (createVmProvisionerShellConfig c).isSome = true ↔ (ProvisionerClass.shell c).Given := by
  unfold createVmProvisionerShellConfig shellPieces
  cases hbinary : c.binary <;> cases hprivileged : c.privileged <;>
    cases hcolor : c.keepColor <;> simp [ProvisionerClass.Given, hbinary, hprivileged, hcolor]

theorem isSome_provisioner (c : VagrantProvisionerConfig) :
    (createVmProvisionerConfig c).isSome = true ↔ c.Given := by
  have hgiven : c.Given ↔ (provisionerHead c).isSome = true ∧ c.provisionerClass.Given := by
    have hhead : (provisionerHead c).isSome = true ↔
        c.run.isSome = true ∧ c.preserveOrder.isSome = true := by
      unfold provisionerHead
      cases c.run <;> cases c.preserveOrder <;> simp
    rw [hhead]
    exact ⟨fun h => ⟨⟨h.run, h.preserveOrder⟩, h.provisionerClass⟩,
      fun h => ⟨h.1.1, h.1.2, h.2⟩⟩
  rw [hgiven, createVmProvisionerConfig]
  cases provisionerHead c with
  | none => simp
  | some head =>
    cases c.provisionerClass with
    | file x => simp [ProvisionerClass.Given]
    | shell x =>
      rw [← isSome_shell]
      cases hshell : createVmProvisionerShellConfig x <;> simp [hshell]

theorem isSome_bind_iff {α β : Type} {x : Option α} {f : α → Option β} {P : Prop}
    (h : ∀ v, (f v).isSome = true ↔ P) : (x.bind f).isSome = true ↔ x.isSome = true ∧ P := by
  cases x with
  | none => simp
  | some v => simp [h]

theorem isSome_vm (c : VagrantVmConfig) :
    (createVmInMultiEnvConfig c).isSome = true ↔ c.Given := by
  have hprovider : (c.provider.bind createVmProviderConfig).isSome = true ↔
      ∃ p, c.provider = some p ∧ p.Given := by
    cases c.provider with
    | none => simp
    | some p => simp [isSome_provider]
  have hgiven : c.Given ↔ c.bootTimeout.isSome = true ∧ c.boxCheckUpdate.isSome = true ∧
      c.boxDownloadInsecure.isSome = true ∧ c.boxDownloadLocationTrusted.isSome = true ∧
      c.gracefulHaltTimeout.isSome = true ∧
      (c.vagrantNetworkConfigs.mapM createVmNetworkConfig).isSome = true ∧
      (c.provider.bind createVmProviderConfig).isSome = true ∧
      (c.vagrantProvisionerConfigs.mapM createVmProvisionerConfig).isSome = true ∧
      (c.vagrantSyncedFolderConfigs.mapM createVmSyncFolderConfig).isSome = true ∧
      c.usablePortRange.isSome = true := by
    simp only [hprovider, isSome_mapM, isSome_network, isSome_provisioner, isSome_syncFolder]
    constructor
    · rintro ⟨h1, h2, h3, h4, h5, h6, h7, h8, h9, h10⟩
      exact ⟨h1, h2, h3, h4, h5, h6, h7, h8, h9, h10⟩
    · rintro ⟨h1, h2, h3, h4, h5, h6, h7, h8, h9, h10⟩
      exact ⟨h1, h2, h3, h4, h5, h6, h7, h8, h9, h10⟩
  rw [hgiven, createVmInMultiEnvConfig]
  refine isSome_bind_iff fun _ => isSome_bind_iff fun _ => isSome_bind_iff fun _ =>
    isSome_bind_iff fun _ => isSome_bind_iff fun _ => isSome_bind_iff fun _ =>
    isSome_bind_iff fun _ => isSome_bind_iff fun _ => isSome_bind_iff fun _ => ?_
  exact (isSome_bind_iff fun _ => iff_of_true rfl trivial).trans (and_iff_left trivial)

theorem isSome_vagrantFile (config : VagrantEnvironmentConfig) :
    (vagrantFile config).isSome = true ↔ config.Given := by
  have hmapM : (vagrantFile config).isSome =
      (config.vmConfigs.mapM createVmInMultiEnvConfig).isSome := by
    unfold vagrantFile
    cases config.vmConfigs.mapM createVmInMultiEnvConfig <;> rfl
  rw [hmapM, isSome_mapM]
  simp only [isSome_vm, VagrantEnvironmentConfig.Given]

/-! ## Settings that are kept -/

/-- A setting that may be left out. -/
def PlainText (x : Option String) : Prop := ∀ v ∈ x, Plain v.toList

/-- A setting that is written whether it is `null` or not. -/
def GivenText (x : Option String) : Prop := ∃ v, x = some v ∧ Plain v.toList

def PlainTexts (xs : List String) : Prop := ∀ v ∈ xs, Plain v.toList

def VagrantNetworkConfig.Safe : VagrantNetworkConfig → Prop
  | .privateNetwork x => PlainText x.ip ∧ PlainText x.netmask
  | .portForwarding x => PlainText x.name ∧ PlainText x.guestIp ∧ PlainText x.hostIp
  | .publicNetwork x => PlainText x.ip ∧ x.bridges.length ≤ 1 ∧ PlainTexts x.bridges

structure VagrantSyncedFolderConfig.Safe (x : VagrantSyncedFolderConfig) : Prop where
  hostPath : GivenText x.hostPath
  guestPath : GivenText x.guestPath
  group : PlainText x.group
  mountOptions : PlainTexts x.mountOptions
  owner : PlainText x.owner
  name : PlainText x.name

/-- Without a name nothing is written about the provider. -/
def VagrantProviderConfig.Safe (x : VagrantProviderConfig) : Prop :=
  ∀ name ∈ x.name, name ≠ "" →
    Plain name.toList ∧ PlainText x.vmName ∧ ∀ v ∈ x.customize, Code v.toList

/-- Only one checksum is written, and a path only without a script. -/
structure VagrantProvisionerShellConfig.Safe (x : VagrantProvisionerShellConfig) : Prop where
  args : PlainTexts x.args
  uploadPath : PlainText x.uploadPath
  name : PlainText x.name
  md5 : PlainText x.md5
  sha1 : (∀ v ∈ x.md5, v = "") → PlainText x.sha1
  inline : ∀ v ∈ x.inline, v ≠ "" → Body "SHELL".toList v.toList
  path : (∀ v ∈ x.inline, v = "") → PlainText x.path

def ProvisionerClass.Safe : ProvisionerClass → Prop
  | .file x => PlainText x.source ∧ PlainText x.destination
  | .shell x => x.Safe

structure VagrantVmConfig.Safe (x : VagrantVmConfig) : Prop where
  name : GivenText x.name
  hostName : PlainText x.hostName
  boxName : PlainText x.boxName
  boxUrl : PlainText x.boxUrl
  provisioners : ∀ p ∈ x.vagrantProvisionerConfigs, p.provisionerClass.Safe
  networks : ∀ n ∈ x.vagrantNetworkConfigs, n.Safe
  syncedFolders : ∀ f ∈ x.vagrantSyncedFolderConfigs, f.Safe
  boxDownloadChecksum : PlainText x.boxDownloadChecksum
  boxDownloadClientCert : PlainText x.boxDownloadClientCert
  boxDownloadCaCert : PlainText x.boxDownloadCaCert
  boxDownloadCaPath : PlainText x.boxDownloadCaPath
  boxVersion : PlainText x.boxVersion
  communicator : PlainText x.communicator
  guest : PlainText x.guest
  postUpMessage : PlainText x.postUpMessage
  usablePortRange : ∀ v ∈ x.usablePortRange, v = "2200..2250" ∨ Code v.toList
  provider : ∀ p ∈ x.provider, p.Safe

/-- The provisioner writes an inline script. -/
def ProvisionerClass.HasScript : ProvisionerClass → Prop
  | .file _ => False
  | .shell x => ∃ v ∈ x.inline, v ≠ ""

def VagrantEnvironmentConfig.Safe (config : VagrantEnvironmentConfig) : Prop :=
  ∀ vm ∈ config.vmConfigs, vm.Safe

def VagrantEnvironmentConfig.HasScript (config : VagrantEnvironmentConfig) : Prop :=
  ∃ vm ∈ config.vmConfigs, ∃ p ∈ vm.vagrantProvisionerConfigs, p.provisionerClass.HasScript

/-! ## Lines that are kept -/

theorem legible_nil : Legible [] := forall_mem_nil

theorem line_good_of (ending : List Char) (ps : List Piece) :
    (Line.of ps).Good ending ↔ Legible ps :=
  ⟨fun h => h.pieces, fun h => ⟨h, trivial⟩⟩

@[simp] theorem legible_cons (p : Piece) (ps : List Piece) :
    Legible (p :: ps) ↔ p.Legible ∧ Legible ps :=
  List.forall_mem_cons

@[simp] theorem legible_append (ps qs : List Piece) :
    Legible (ps ++ qs) ↔ Legible ps ∧ Legible qs :=
  List.forall_mem_append

@[simp] theorem legible_code (text : String) : (Piece.code text).Legible := trivial

@[simp] theorem legible_number (n : Int) : (Piece.number n).Legible := trivial

@[simp] theorem legible_quoted (v : String) : (Piece.quoted v).Legible ↔ Plain v.toList := Iff.rfl

@[simp] theorem legible_boolean (b : Bool) : (boolean b).Legible := trivial

@[simp] theorem legible_numberOrNull (x : Option Int) : (numberOrNull x).Legible := by
  cases x <;> trivial

@[simp] theorem legible_quotedOrNull (x : Option String) :
    (quotedOrNull x).Legible ↔ GivenText x := by
  cases x with
  | none => simp [quotedOrNull, Piece.Legible, GivenText]
  | some v => simp [quotedOrNull, GivenText]

theorem legible_ite {c : Prop} [Decidable c] {ps qs : List Piece} :
    Legible (if c then ps else qs) ↔ (c → Legible ps) ∧ (¬ c → Legible qs) := by
  split <;> simp_all

theorem plain_empty : Plain "".toList := by decide +kernel

theorem legible_whenFilled {x : Option String} {f : String → List Piece}
    (h : ∀ v, Legible (f v) ↔ Plain v.toList) : Legible (whenFilled x f) ↔ PlainText x := by
  cases x with
  | none => simp [whenFilled, PlainText, legible_nil]
  | some v =>
    by_cases hv : v = ""
    · subst hv
      simpa [whenFilled, PlainText, legible_nil] using plain_empty
    · simp [whenFilled, PlainText, hv, h]

theorem legible_whenGiven {x : Option String} {f : String → List Piece}
    (h : ∀ v, Legible (f v) ↔ Plain v.toList) : Legible (whenGiven x f) ↔ PlainText x := by
  cases x with
  | none => simp [whenGiven, PlainText, legible_nil]
  | some v => simp [whenGiven, PlainText, h]

theorem legible_quotedList (values : List String) :
    Legible (quotedList values) ↔ PlainTexts values := by
  have hlist : Legible ((values.map Piece.quoted).intersperse (.code ", ")) ↔
      PlainTexts values := by
    induction values with
    | nil => simp [PlainTexts, legible_nil]
    | cons v vs ih =>
      cases vs with
      | nil => simp [PlainTexts, legible_nil]
      | cons w ws =>
        simp only [List.map_cons, List.intersperse_cons_cons, legible_cons, legible_quoted,
          legible_code, true_and] at ih ⊢
        rw [ih]
        simp [PlainTexts]
  simp [quotedList, hlist, legible_nil]

theorem good_network {ending : List Char} {c : VagrantNetworkConfig} {l : Line}
    (h : createVmNetworkConfig c = some l) : l.Good ending ↔ c.Safe := by
  cases c with
  | privateNetwork x =>
    simp only [createVmNetworkConfig, createVmNetworkPrivateNetworkConfig, Option.bind_eq_bind,
      Option.bind_eq_some_iff, Option.some.injEq] at h
    obtain ⟨dhcp, -, autoConfig, -, rfl⟩ := h
    have hkind : (Piece.quoted "private_network").Legible := by
      rw [legible_quoted]
      decide +kernel
    have hdhcp : (Piece.quoted "dhcp").Legible := by
      rw [legible_quoted]
      decide +kernel
    simp [line_good_of, VagrantNetworkConfig.Safe, legible_nil, legible_ite,
      legible_whenFilled, hkind, hdhcp]
  | portForwarding x =>
    simp only [createVmNetworkConfig, createVmNetworkPortForwardingConfig, Option.bind_eq_bind,
      Option.bind_eq_some_iff, Option.some.injEq] at h
    obtain ⟨protocol, -, autoCorrect, -, rfl⟩ := h
    have hkind : (Piece.quoted "forwarded_port").Legible := by
      rw [legible_quoted]
      decide +kernel
    have hprotocol : Plain protocol.text.toList := by
      cases protocol <;> decide +kernel
    simp [line_good_of, VagrantNetworkConfig.Safe, legible_nil, legible_ite,
      legible_whenFilled, hkind, hprotocol]
  | publicNetwork x =>
    simp only [createVmNetworkConfig, createVmNetworkPublicNetworkConfig, Option.bind_eq_bind,
      Option.bind_eq_some_iff, Option.some.injEq] at h
    obtain ⟨useDhcp, -, autoConfig, -, rfl⟩ := h
    have hkind : (Piece.quoted "public_network").Legible := by
      rw [legible_quoted]
      decide +kernel
    have hbridges : Legible (bridgePieces x.bridges) ↔
        x.bridges.length ≤ 1 ∧ PlainTexts x.bridges := by
      rcases x.bridges with _ | ⟨b₁, _ | ⟨b₂, bs⟩⟩
      · simp [bridgePieces, PlainTexts, legible_nil]
      · simp [bridgePieces, PlainTexts, legible_nil]
      · simp [bridgePieces, Piece.Legible]
    simp [line_good_of, VagrantNetworkConfig.Safe, legible_nil, legible_ite,
      legible_whenFilled, hkind, hbridges]

theorem legible_nfs {c : SyncedFolderClass} {ps : List Piece} (h : nfsPieces c = some ps) :
    Legible ps := by
  cases c with
  | nfs nfsExport nfsUdp nfsVersion =>
    simp only [nfsPieces, createVmSyncedFolderNfsConfig, Option.bind_eq_bind,
      Option.bind_eq_some_iff, Option.some.injEq] at h
    obtain ⟨export', -, udp, -, version, -, rfl⟩ := h
    simp [legible_nil, legible_ite]
  | rsync =>
    obtain rfl := Option.some.inj h
    exact legible_nil
  | virtualBox =>
    obtain rfl := Option.some.inj h
    exact legible_nil

theorem good_syncFolder {ending : List Char} {c : VagrantSyncedFolderConfig} {l : Line}
    (h : createVmSyncFolderConfig c = some l) : l.Good ending ↔ c.Safe := by
  simp only [createVmSyncFolderConfig, Option.bind_eq_bind, Option.bind_eq_some_iff,
    Option.some.injEq] at h
  obtain ⟨create, -, disabled, -, nfs, hnfs, rfl⟩ := h
  have hmode : Plain c.folderClass.mode.toList := by
    cases c.folderClass <;> rw [SyncedFolderClass.mode] <;> decide +kernel
  have hoptions : Legible (if c.mountOptions = [] then []
      else .code ", mount_options: " :: (quotedList c.mountOptions ++ [.code " "])) ↔
      PlainTexts c.mountOptions := by
    by_cases h : c.mountOptions = []
    · simp [h, PlainTexts, legible_nil]
    · simp [h, legible_quotedList, legible_nil]
  have hsafe : c.Safe ↔ GivenText c.hostPath ∧ GivenText c.guestPath ∧ PlainText c.group ∧
      PlainTexts c.mountOptions ∧ PlainText c.owner ∧ PlainText c.name := by
    constructor
    · intro h
      exact ⟨h.hostPath, h.guestPath, h.group, h.mountOptions, h.owner, h.name⟩
    · rintro ⟨hhost, hguest, hgroup, hoptions, howner, hname⟩
      exact ⟨hhost, hguest, hgroup, hoptions, howner, hname⟩
  rw [hsafe]
  simp [line_good_of, legible_nil, legible_ite, legible_whenFilled, hmode, hoptions,
    legible_nfs hnfs]

theorem line_good_mk (ending : List Char) (ps : List Piece) (t : Tail) :
    (⟨ps, t⟩ : Line).Good ending ↔ Legible ps ∧ t.Good ending :=
  ⟨fun h => ⟨h.pieces, h.tail⟩, fun h => ⟨h.1, h.2⟩⟩

theorem good_script (ending : List Char) (v : String) :
    (Tail.script v).Good ending ↔ ending = ['\n'] ∧ Body "SHELL".toList v.toList :=
  Iff.rfl

theorem legible_checksum (md5 sha1 : Option String) :
    Legible (checksumPieces md5 sha1) ↔
      PlainText md5 ∧ ((∀ v ∈ md5, v = "") → PlainText sha1) := by
  have hmd5 : Legible (whenFilled md5 fun v => [.code ", md5: ", .quoted v]) ↔ PlainText md5 :=
    legible_whenFilled fun v => by simp [legible_nil]
  have hsha1 : Legible (whenFilled sha1 fun v => [.code ", sha1: ", .quoted v]) ↔
      PlainText sha1 :=
    legible_whenFilled fun v => by simp [legible_nil]
  unfold checksumPieces
  split
  · -- no piece for `md5`: it is left out or empty
    rename_i hnil
    have hempty : ∀ v ∈ md5, v = "" := by
      rintro v rfl
      by_contra hv
      simp [whenFilled, hv] at hnil
    rw [hnil] at hmd5
    rw [hsha1]
    exact ⟨fun h => ⟨hmd5.mp legible_nil, fun _ => h⟩, fun h => h.2 hempty⟩
  · rename_i hne
    have hfilled : ¬ ∀ v ∈ md5, v = "" := by
      intro hall
      refine hne ?_
      cases md5 with
      | none => rfl
      | some v => simp [whenFilled, hall v rfl]
    rw [hmd5]
    exact ⟨fun h => ⟨h, fun hall => absurd hall hfilled⟩, fun h => h.1⟩

theorem legible_shell {x : VagrantProvisionerShellConfig} {ps : List Piece}
    (h : shellPieces x = some ps) : Legible ps ↔ PlainTexts x.args ∧ PlainText x.uploadPath ∧ PlainText x.name ∧
      PlainText x.md5 ∧ ((∀ v ∈ x.md5, v = "") → PlainText x.sha1) := by
  simp only [shellPieces, Option.bind_eq_bind, Option.bind_eq_some_iff, Option.some.injEq] at h
  obtain ⟨binary, -, privileged, -, keepColor, -, rfl⟩ := h
  have hargs : Legible (if x.args = [] then []
      else .code ", args: " :: quotedList x.args) ↔ PlainTexts x.args := by
    by_cases h : x.args = []
    · simp [h, PlainTexts, legible_nil]
    · simp [h, legible_quotedList]
  simp [legible_nil, legible_ite, legible_whenFilled, legible_whenGiven, legible_checksum, hargs]

/-- A script is written in place of the path. -/
theorem good_scriptPieces (ending : List Char) (inline path : Option String) :
    (⟨(scriptPieces inline path).1, (scriptPieces inline path).2⟩ : Line).Good ending ↔
      (∀ v ∈ inline, v ≠ "" → ending = ['\n'] ∧ Body "SHELL".toList v.toList) ∧
        ((∀ v ∈ inline, v = "") → PlainText path) := by
  have hpath : Legible (whenGiven path fun v => [.code ", path: ", .quoted v, .code " "]) ↔
      PlainText path :=
    legible_whenGiven fun v => by simp [legible_nil]
  cases inline with
  | none =>
    rw [line_good_mk]
    simp [scriptPieces, hpath, Tail.Good]
  | some script =>
    by_cases h : script = ""
    · rw [line_good_mk]
      simp [scriptPieces, hpath, Tail.Good, h]
    · have hpieces : scriptPieces (some script) path = ([.code ", inline: "], .script script) := by
        simp [scriptPieces, h]
      rw [hpieces, line_good_mk, good_script]
      simp [h, legible_nil]

theorem legible_provisionerHead {c : VagrantProvisionerConfig} {ps : List Piece}
    (h : provisionerHead c = some ps) : Legible ps := by
  simp only [provisionerHead, Option.bind_eq_bind, Option.bind_eq_some_iff,
    Option.some.injEq] at h
  obtain ⟨run, -, preserveOrder, -, rfl⟩ := h
  have hmode : Plain c.provisionerClass.mode.toList := by
    cases c.provisionerClass <;> rw [ProvisionerClass.mode] <;> decide +kernel
  have hrun : Plain run.text.toList := by
    cases run <;> decide +kernel
  simp [legible_nil, legible_ite, hmode, hrun]

theorem good_provisioner {ending : List Char} {c : VagrantProvisionerConfig} {l : Line}
    (h : createVmProvisionerConfig c = some l) : l.Good ending ↔
      c.provisionerClass.Safe ∧ (c.provisionerClass.HasScript → ending = ['\n']) := by
  unfold createVmProvisionerConfig at h
  obtain ⟨head, hhead, h⟩ := Option.bind_eq_some_iff.mp h
  replace hhead := legible_provisionerHead hhead
  cases hclass : c.provisionerClass with
  | file x =>
    simp only [hclass, Option.some.injEq] at h
    obtain rfl := h
    simp [line_good_of, hhead, createVmProvisionerFileConfig, legible_whenGiven, legible_nil,
      ProvisionerClass.Safe, ProvisionerClass.HasScript]
  | shell x =>
    simp only [hclass, createVmProvisionerShellConfig, Option.bind_eq_bind,
      Option.bind_eq_some_iff, Option.some.injEq] at h
    obtain ⟨shell, ⟨ps, hps, rfl⟩, rfl⟩ := h
    have hscript := good_scriptPieces ending x.inline x.path
    rw [line_good_mk] at hscript
    rw [line_good_mk, legible_append, legible_append, legible_shell hps, and_iff_right hhead,
      and_assoc, hscript]
    constructor
    · rintro ⟨⟨h1, h2, h3, h4, h5⟩, h6, h7⟩
      refine ⟨⟨h1, h2, h3, h4, h5, fun v hv hne => (h6 v hv hne).2, h7⟩, ?_⟩
      rintro ⟨v, hv, hne⟩
      exact (h6 v hv hne).1
    · rintro ⟨h, hend⟩
      exact ⟨⟨h.args, h.uploadPath, h.name, h.md5, h.sha1⟩,
        fun v hv hne => ⟨hend ⟨v, hv, hne⟩, h.inline v hv hne⟩, h.path⟩

/-! ## Blocks that are kept -/

def AllGood (ending : List Char) (ns : List (Node Line)) : Prop :=
  ∀ l ∈ Node.allLines ns, l.Good ending

variable {ending : List Char}

@[simp] theorem allGood_nil : AllGood ending [] := forall_mem_nil

@[simp] theorem allGood_cons (n : Node Line) (ns : List (Node Line)) :
    AllGood ending (n :: ns) ↔ (∀ l ∈ n.lines, l.Good ending) ∧ AllGood ending ns := by
  simp [AllGood, Node.allLines, or_imp, forall_and]

theorem allGood_line (l : Line) : AllGood ending [.line l] ↔ l.Good ending := by
  simp [Node.lines]

theorem allGood_append (ms ns : List (Node Line)) :
    AllGood ending (ms ++ ns) ↔ AllGood ending ms ∧ AllGood ending ns := by
  simp [AllGood, Node.allLines_append, or_imp, forall_and]

@[simp] theorem allGood_flatten (nss : List (List (Node Line))) :
    AllGood ending nss.flatten ↔ ∀ ns ∈ nss, AllGood ending ns := by
  induction nss with
  | nil => simp
  | cons ns nss ih => simp [allGood_append, ih]

theorem allGood_map {α : Type} (xs : List α) (f : α → Node Line) :
    AllGood ending (xs.map f) ↔ ∀ x ∈ xs, ∀ l ∈ (f x).lines, l.Good ending := by
  induction xs with
  | nil => simp
  | cons x xs ih => simp [ih]

theorem allGood_lineMap {α : Type} (xs : List α) (f : α → Line) :
    AllGood ending (xs.map fun x => .line (f x)) ↔ ∀ x ∈ xs, (f x).Good ending := by
  simp [allGood_map, Node.lines]

theorem allGood_ite {c : Prop} [Decidable c] {ms ns : List (Node Line)} :
    AllGood ending (if c then ms else ns) ↔ (c → AllGood ending ms) ∧ (¬ c → AllGood ending ns) := by
  split <;> simp_all

/-- The line of one setting, whatever stands before it. -/
theorem good_quoted (text v : String) :
    (Line.of [.code text, .quoted v]).Good ending ↔ Plain v.toList := by
  simp [line_good_of, legible_nil]

theorem good_number (text : String) (n : Int) :
    (Line.of [.code text, .number n]).Good ending := by
  simp [line_good_of, legible_nil]

theorem good_boolean (text : String) (b : Bool) :
    (Line.of [.code text, boolean b]).Good ending := by
  simp [line_good_of, legible_nil]

theorem allGood_lineOf {x : Option String} {f : String → Line}
    (h : ∀ v, (f v).Good ending ↔ Plain v.toList) :
    AllGood ending (lineOf x f) ↔ PlainText x := by
  rw [lineOf, allGood_lineMap]
  simp [PlainText, h]

/-- A number has none of the characters that mean something in a
literal. -/
theorem plain_number (n : Int) : Plain (toString n).toList := by
  have hall := number_all (P := fun c => c != '"' && c != '\\' && c != '\r' && c != '#')
    (by decide) n (by decide)
  simp only [List.all_eq_true, Bool.and_eq_true, bne_iff_ne, ne_eq] at hall
  refine ⟨fun h => (hall _ h).1.1.1 rfl, fun h => (hall _ h).1.1.2 rfl, ?_, ?_⟩
  · intro hbreak
    exact (hall '\r' (hbreak.subset List.mem_cons_self)).1.2 rfl
  · apply interpolates_of_not_mem
    intro h
    obtain h | h := List.mem_append.mp h
    · exact (hall _ h).2 rfl
    · simp at h

theorem good_provider {c : VagrantProviderConfig} {ns : List (Node Line)}
    (hns : createVmProviderConfig c = some ns) : AllGood ending ns ↔ c.Safe := by
  unfold createVmProviderConfig at hns
  unfold VagrantProviderConfig.Safe
  split at hns
  · rename_i hname
    obtain rfl := Option.some.inj hns
    simp [hname]
  · rename_i name hname
    have hvmName : AllGood ending (filledLine c.vmName fun v =>
        .of [.code "      provider.name = ", .quoted v]) ↔ PlainText c.vmName := by
      cases c.vmName with
      | none => simp [filledLine, PlainText]
      | some v =>
        by_cases hv : v = ""
        · subst hv
          simpa [filledLine, PlainText] using plain_empty
        · simp [filledLine, PlainText, hv, Node.lines, good_quoted]
    have hcustomize : AllGood ending (c.customize.map fun customize =>
        .line ⟨[.code "      provider.customize = "], .code customize⟩) ↔
        ∀ v ∈ c.customize, Code v.toList := by
      rw [allGood_lineMap]
      simp [line_good_mk, legible_nil, Tail.Good]
    by_cases h : name = ""
    · rw [if_pos h] at hns
      obtain rfl := Option.some.inj hns
      simp [h, hname]
    · rw [if_neg h] at hns
      simp only [Option.bind_eq_bind, Option.bind_eq_some_iff, Option.some.injEq] at hns
      obtain ⟨guiMode, -, memory, -, cpus, -, rfl⟩ := hns
      rw [allGood_cons, and_iff_left allGood_nil]
      simp only [Node.lines, List.forall_mem_cons, List.forall_mem_append]
      rw [← AllGood, allGood_flatten]
      simp only [allGood_ite, line_good_of, hname, allGood_line, List.forall_mem_cons,
        allGood_nil, hvmName, hcustomize]
      simp [h, legible_nil]
      exact fun _ _ _ _ => plain_number memory

/-- What is always written, or a constant, is no condition. -/
theorem good_vm {c : VagrantVmConfig} {n : Node Line}
    (h : createVmInMultiEnvConfig c = some n) : (∀ l ∈ n.lines, l.Good ending) ↔ c.Safe ∧
      ((∃ p ∈ c.vagrantProvisionerConfigs, p.provisionerClass.HasScript) → ending = ['\n']) := by
  obtain ⟨bootTimeout, -, h⟩ := Option.bind_eq_some_iff.mp h
  obtain ⟨boxCheckUpdate, -, h⟩ := Option.bind_eq_some_iff.mp h
  obtain ⟨insecure, -, h⟩ := Option.bind_eq_some_iff.mp h
  obtain ⟨trusted, -, h⟩ := Option.bind_eq_some_iff.mp h
  obtain ⟨haltTimeout, -, h⟩ := Option.bind_eq_some_iff.mp h
  obtain ⟨networks, hns, h⟩ := Option.bind_eq_some_iff.mp h
  obtain ⟨provider, hprovider, h⟩ := Option.bind_eq_some_iff.mp h
  obtain ⟨config, hconfig, hp⟩ := Option.bind_eq_some_iff.mp hprovider
  obtain ⟨provisioners, hps, h⟩ := Option.bind_eq_some_iff.mp h
  obtain ⟨syncFolders, hfs, h⟩ := Option.bind_eq_some_iff.mp h
  obtain ⟨portRange, hrange, h⟩ := Option.bind_eq_some_iff.mp h
  obtain rfl := Option.some.inj h
  have htype : AllGood ending
      (lineOf c.boxDownloadChecksumType createVmBoxDownloadChecksumTypeConfig) := by
    rw [lineOf, allGood_lineMap]
    intro t _
    rw [createVmBoxDownloadChecksumTypeConfig, good_quoted]
    cases t <;> decide +kernel
  have hportRange : AllGood ending (if portRange = "2200..2250" then []
      else [.line (createVmUsablePortRangeConfig portRange)]) ↔
      ∀ v ∈ c.usablePortRange, v = "2200..2250" ∨ Code v.toList := by
    simp only [hrange, Option.mem_def, Option.some.injEq, forall_eq']
    by_cases h : portRange = "2200..2250"
    · simp [h]
    · rw [if_neg h, allGood_line, createVmUsablePortRangeConfig, line_good_mk]
      simp [h, legible_nil, Tail.Good]
  have hnetworks : AllGood ending (networks.map .line) ↔
      ∀ n ∈ c.vagrantNetworkConfigs, n.Safe := by
    rw [allGood_lineMap]
    exact forall_mem_mapM_iff hns fun _ _ => good_network
  have hfolders : AllGood ending (syncFolders.map .line) ↔
      ∀ f ∈ c.vagrantSyncedFolderConfigs, f.Safe := by
    rw [allGood_lineMap]
    exact forall_mem_mapM_iff hfs fun _ _ => good_syncFolder
  have hprovisioners : AllGood ending (provisioners.map .line) ↔
      (∀ p ∈ c.vagrantProvisionerConfigs, p.provisionerClass.Safe) ∧
        ((∃ p ∈ c.vagrantProvisionerConfigs, p.provisionerClass.HasScript) → ending = ['\n']) := by
    rw [allGood_lineMap, forall_mem_mapM_iff hps fun _ _ => good_provisioner]
    simp [forall_and]
  have hprovider : AllGood ending provider ↔ ∀ p ∈ c.provider, p.Safe := by
    simp only [hconfig, Option.mem_def, Option.some.injEq, forall_eq']
    exact good_provider hp
  have hhead : (Line.of [.code "  config.vm.define ", quotedOrNull c.name,
      .code " do |vm|"]).Good ending ↔ GivenText c.name := by
    simp [line_good_of, legible_nil]
  have hfoot : (Line.of [.code "  end"]).Good ending := by
    simp [line_good_of, legible_nil]
  have hsafe : (c.Safe ∧ ((∃ p ∈ c.vagrantProvisionerConfigs, p.provisionerClass.HasScript) →
      ending = ['\n'])) ↔
      GivenText c.name ∧ PlainText c.boxName ∧ PlainText c.boxDownloadChecksum ∧
        PlainText c.boxDownloadClientCert ∧ PlainText c.boxDownloadCaCert ∧
        PlainText c.boxDownloadCaPath ∧ PlainText c.boxUrl ∧ PlainText c.boxVersion ∧
        PlainText c.communicator ∧ PlainText c.guest ∧ PlainText c.hostName ∧
        (∀ n ∈ c.vagrantNetworkConfigs, n.Safe) ∧ PlainText c.postUpMessage ∧
        (∀ p ∈ c.provider, p.Safe) ∧
        ((∀ p ∈ c.vagrantProvisionerConfigs, p.provisionerClass.Safe) ∧
          ((∃ p ∈ c.vagrantProvisionerConfigs, p.provisionerClass.HasScript) → ending = ['\n'])) ∧
        (∀ f ∈ c.vagrantSyncedFolderConfigs, f.Safe) ∧
        (∀ v ∈ c.usablePortRange, v = "2200..2250" ∨ Code v.toList) := by
    constructor
    · rintro ⟨h, hend⟩
      exact ⟨h.name, h.boxName, h.boxDownloadChecksum, h.boxDownloadClientCert,
        h.boxDownloadCaCert, h.boxDownloadCaPath, h.boxUrl, h.boxVersion, h.communicator, h.guest,
        h.hostName, h.networks, h.postUpMessage, h.provider, ⟨h.provisioners, hend⟩,
        h.syncedFolders, h.usablePortRange⟩
    · rintro ⟨h1, h2, h3, h4, h5, h6, h7, h8, h9, h10, h11, h12, h13, h14, ⟨h15, h16⟩, h17, h18⟩
      exact ⟨⟨h1, h11, h2, h7, h15, h12, h17, h3, h4, h5, h6, h8, h9, h10, h13, h18, h14⟩, h16⟩
  rw [hsafe]
  simp only [Node.lines, List.forall_mem_cons, List.forall_mem_append, hhead, hfoot]
  rw [← AllGood, allGood_flatten]
  simp only [List.forall_mem_cons, allGood_ite, allGood_nil, allGood_line, htype, hportRange,
    hnetworks, hfolders, hprovisioners, hprovider, allGood_lineOf, createVmBoxNameConfig,
    createVmBoxDownloadChecksumConfig, createVmBoxDownloadClientCertConfig,
    createVmBoxDownloadCaCertConfig, createVmBoxDownloadCaPathConfig, createVmBoxUrlConfig,
    createVmBoxVersionConfig, createVmCommunicatorConfig, createVmGuestConfig,
    createVmHostNameConfig, createVmPostUpMessageConfig, createVmBootTimeoutConfig,
    createVmBoxCheckUpdateConfig, createVmBoxDownloadInsecureConfig,
    createVmBoxDownloadLocationTrustedConfig, createVmGracefulHaltTimeoutConfig, good_quoted,
    good_number, good_boolean, implies_true, and_true, true_and, List.not_mem_nil,
    false_implies]

/-- **What a Vagrantfile keeps.** -/
theorem givenBack_iff (hend : ending = [] ∨ ending = ['\n']) (config : VagrantEnvironmentConfig) :
    GivenBack ending config ↔
      config.Given ∧ config.Safe ∧ (config.HasScript → ending = ['\n']) := by
  have hhead : (Line.of [.code "Vagrant.configure(", .quoted "2",
      .code ") do |config|"]).Good ending := by
    have htwo : Plain "2".toList := by decide +kernel
    rw [line_good_of, legible_cons, legible_cons, legible_cons, legible_quoted]
    exact ⟨trivial, htwo, trivial, legible_nil⟩
  have hfoot : (Line.of [.code "end"]).Good ending := by
    simp [line_good_of, legible_nil]
  have hlines : ∀ file, vagrantFile config = some file → ((∀ l ∈ file.lines, l.Good ending) ↔
      config.Safe ∧ (config.HasScript → ending = ['\n'])) := by
    intro file hfile
    simp only [vagrantFile, Option.bind_eq_bind, Option.bind_eq_some_iff,
      Option.some.injEq] at hfile
    obtain ⟨vms, hvms, rfl⟩ := hfile
    have hbody : (∀ l ∈ Node.allLines vms, l.Good ending) ↔
        ∀ n ∈ vms, ∀ l ∈ n.lines, l.Good ending := by
      simp only [mem_allLines]
      constructor
      · intro h n hn l hl
        exact h l ⟨n, hn, hl⟩
      · rintro h l ⟨n, hn, hl⟩
        exact h n hn l hl
    simp only [Node.lines, List.forall_mem_cons, List.forall_mem_append, hhead, hfoot, hbody]
    rw [forall_mem_mapM_iff hvms fun _ _ => good_vm]
    simp [forall_and, VagrantEnvironmentConfig.Safe, VagrantEnvironmentConfig.HasScript]
  rw [givenBack_lines hend, ← isSome_vagrantFile]
  cases hfile : vagrantFile config with
  | none => simp
  | some file => simp [hlines file hfile]

end Clustering.Vagrant
