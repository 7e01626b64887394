/-
Clustering.Vagrant.Configuration — `VagrantConfigurationUtilities.scala`.

The builders of the source append text to text. Here they give the pieces
of each line: text of their own, numbers, and settings between double
quotes, without quotes, as a whole line of code or as the body of a
here-document. `createVagrantFileContent` is the text of all of them. A
`null` list of the source is the empty list, any other `null` setting is
`none`; a `File` or `URL` is the text the source takes of it.

A builder that unboxes a `null`, or calls a method of it, raises: it gives
`none`.
-/
import Clustering.Ruby.Blocks

namespace Clustering.Vagrant

open Ruby (Node)

/-! ## Settings -/

inductive ChecksumType
  | md5
  | sha1
  | sha256
  deriving DecidableEq, Repr

def ChecksumType.text : ChecksumType → String
  | .md5 => "md5"
  | .sha1 => "sha1"
  | .sha256 => "sha256"

inductive Protocol
  | udp
  | tcp
  deriving DecidableEq, Repr

def Protocol.text : Protocol → String
  | .udp => "udp"
  | .tcp => "tcp"

inductive Run
  | always
  | never
  | once
  deriving DecidableEq, Repr

def Run.text : Run → String
  | .always => "always"
  | .never => "never"
  | .once => "once"

structure VagrantPrivateNetworkConfig where
  dhcp : Option Bool
  ip : Option String
  netmask : Option String
  autoConfig : Option Bool

structure VagrantPortForwardingConfig where
  autoCorrect : Option Bool
  guestPort : Option Int
  guestIp : Option String
  hostPort : Option Int
  hostIp : Option String
  protocol : Option Protocol
  service : Option String
  name : Option String

structure VagrantPublicNetworkConfig where
  useDhcpAssignedDefaultRoute : Option Bool
  ip : Option String
  bridges : List String
  autoConfig : Option Bool

inductive VagrantNetworkConfig
  | privateNetwork (config : VagrantPrivateNetworkConfig)
  | portForwarding (config : VagrantPortForwardingConfig)
  | publicNetwork (config : VagrantPublicNetworkConfig)

/-- The three classes of synced folders, with what one has and the others
have not. -/
inductive SyncedFolderClass
  | nfs (nfsExport nfsUdp : Option Bool) (nfsVersion : Option Int)
  | rsync
  | virtualBox

def SyncedFolderClass.mode : SyncedFolderClass → String
  | .nfs .. => "nfs"
  | .rsync => "rsync"
  | .virtualBox => "virtualbox"

structure VagrantSyncedFolderConfig where
  hostPath : Option String
  guestPath : Option String
  create : Option Bool
  disabled : Option Bool
  group : Option String
  mountOptions : List String
  owner : Option String
  name : Option String
  folderClass : SyncedFolderClass

structure VagrantProviderConfig where
  name : Option String
  guiMode : Option Bool
  memory : Option Int
  cpus : Option Int
  customize : List String
  vmName : Option String

structure VagrantProvisionerFileConfig where
  source : Option String
  destination : Option String

structure VagrantProvisionerShellConfig where
  inline : Option String
  path : Option String
  args : List String
  binary : Option Bool
  privileged : Option Bool
  uploadPath : Option String
  keepColor : Option Bool
  name : Option String
  md5 : Option String
  sha1 : Option String

inductive ProvisionerClass
  | file (config : VagrantProvisionerFileConfig)
  | shell (config : VagrantProvisionerShellConfig)

def ProvisionerClass.mode : ProvisionerClass → String
  | .file _ => "file"
  | .shell _ => "shell"

structure VagrantProvisionerConfig where
  run : Option Run
  preserveOrder : Option Bool
  provisionerClass : ProvisionerClass

structure VagrantVmConfig where
  name : Option String
  hostName : Option String
  boxName : Option String
  boxUrl : Option String
  vagrantProvisionerConfigs : List VagrantProvisionerConfig
  vagrantNetworkConfigs : List VagrantNetworkConfig
  vagrantSyncedFolderConfigs : List VagrantSyncedFolderConfig
  bootTimeout : Option Int
  boxCheckUpdate : Option Bool
  boxDownloadChecksum : Option String
  boxDownloadChecksumType : Option ChecksumType
  boxDownloadClientCert : Option String
  boxDownloadCaCert : Option String
  boxDownloadCaPath : Option String
  boxDownloadInsecure : Option Bool
  boxDownloadLocationTrusted : Option Bool
  boxVersion : Option String
  communicator : Option String
  gracefulHaltTimeout : Option Int
  guest : Option String
  postUpMessage : Option String
  usablePortRange : Option String
  provider : Option VagrantProviderConfig

/-- A machine with no more than its name. -/
def bareVm : VagrantVmConfig where
  name := some "node"
  hostName := none
  boxName := none
  boxUrl := none
  vagrantProvisionerConfigs := []
  vagrantNetworkConfigs := []
  vagrantSyncedFolderConfigs := []
  bootTimeout := some 300
  boxCheckUpdate := some true
  boxDownloadChecksum := none
  boxDownloadChecksumType := none
  boxDownloadClientCert := none
  boxDownloadCaCert := none
  boxDownloadCaPath := none
  boxDownloadInsecure := some false
  boxDownloadLocationTrusted := some false
  boxVersion := none
  communicator := none
  gracefulHaltTimeout := some 60
  guest := none
  postUpMessage := none
  usablePortRange := some "2200..2250"
  provider := some ⟨none, none, none, none, [], none⟩

structure VagrantEnvironmentConfig where
  vmConfigs : List VagrantVmConfig

/-! ## Pieces of text -/

/-- `null` is a setting that is written between quotes although it is
`null`. -/
inductive Piece
  | code (text : String)
  | number (n : Int)
  | quoted (value : String)
  | null
  | bare (values : List String)

def Piece.text : Piece → List Char
  | .code text => text.toList
  | .number n => (toString n).toList
  | .quoted value => '"' :: (value.toList ++ ['"'])
  | .null => '"' :: ("null".toList ++ ['"'])
  | .bare values => [',', ' '].intercalate (values.map String.toList)

/-- What a line may end with: a setting that is a line of code, or an
inline script. -/
inductive Tail
  | none
  | code (value : String)
  | script (value : String)

def Tail.text : Tail → List Char
  | .none => []
  | .code value => value.toList
  | .script value => "<<-SHELL\n".toList ++ value.toList ++ "\n    SHELL".toList

structure Line where
  pieces : List Piece
  tail : Tail

def Line.text (l : Line) : List Char := l.pieces.flatMap Piece.text ++ l.tail.text

/-- Every line is appended with its line break. -/
def render (lines : List Line) : String := String.ofList (lines.flatMap fun l => l.text ++ ['\n'])

/-- A line without a tail. -/
def Line.of (pieces : List Piece) : Line := ⟨pieces, .none⟩

def boolean (b : Bool) : Piece := .code (if b then "true" else "false")

def numberOrNull : Option Int → Piece
  | some n => .number n
  | none => .code "null"

def quotedOrNull : Option String → Piece
  | some v => .quoted v
  | none => .null

/-- `x != null && !x.isEmpty`. -/
def whenFilled (x : Option String) (pieces : String → List Piece) : List Piece :=
  match x with
  | some v => if v = "" then [] else pieces v
  | none => []

/-- `x != null`. -/
def whenGiven (x : Option String) (pieces : String → List Piece) : List Piece :=
  match x with
  | some v => pieces v
  | none => []

/-- `mkString("[\"", "\", \"", "\"]")`, of a list that is not empty. -/
def quotedList (values : List String) : List Piece :=
  .code "[" :: ((values.map Piece.quoted).intersperse (.code ", ") ++ [.code "]"])

/-! ## Settings of a virtual machine -/

def createVmBootTimeoutConfig (value : Int) : Line :=
  .of [.code "    vm.vm.boot_timeout = ", .number value]

def createVmBoxNameConfig (value : String) : Line :=
  .of [.code "    vm.vm.box = ", .quoted value]

def createVmBoxCheckUpdateConfig (value : Bool) : Line :=
  .of [.code "    vm.vm.box_check_update = ", boolean value]

def createVmBoxDownloadChecksumConfig (value : String) : Line :=
  .of [.code "    vm.vm.box_download_checksum = ", .quoted value]

def createVmBoxDownloadChecksumTypeConfig (value : ChecksumType) : Line :=
  .of [.code "    vm.vm.box_download_checksum_type = ", .quoted value.text]

def createVmBoxDownloadClientCertConfig (value : String) : Line :=
  .of [.code "    vm.vm.box_download_client_cert = ", .quoted value]

def createVmBoxDownloadCaCertConfig (value : String) : Line :=
  .of [.code "    vm.vm.box_download_ca_cert = ", .quoted value]

def createVmBoxDownloadCaPathConfig (value : String) : Line :=
  .of [.code "    vm.vm.box_download_ca_path = ", .quoted value]

def createVmBoxDownloadInsecureConfig (value : Bool) : Line :=
  .of [.code "    vm.vm.box_download_insecure = ", boolean value]

def createVmBoxDownloadLocationTrustedConfig (value : Bool) : Line :=
  .of [.code "    vm.vm.box_download_location_trusted = ", boolean value]

def createVmBoxUrlConfig (value : String) : Line :=
  .of [.code "    vm.vm.box_url = ", .quoted value]

def createVmBoxVersionConfig (value : String) : Line :=
  .of [.code "    vm.vm.box_version = ", .quoted value]

def createVmCommunicatorConfig (value : String) : Line :=
  .of [.code "    vm.vm.communicator = ", .quoted value]

def createVmGracefulHaltTimeoutConfig (value : Int) : Line :=
  .of [.code "    vm.vm.graceful_halt_timeout = ", .number value]

def createVmGuestConfig (value : String) : Line :=
  .of [.code "    vm.vm.guest = ", .quoted value]

def createVmHostNameConfig (value : String) : Line :=
  .of [.code "    vm.vm.hostname = ", .quoted value]

def createVmPostUpMessageConfig (value : String) : Line :=
  .of [.code "    vm.vm.post_up_message = ", .quoted value]

def createVmUsablePortRangeConfig (value : String) : Line :=
  ⟨[.code "    vm.vm.usable_port_range = "], .code value⟩

/-! ## Networks -/

def createVmNetworkPrivateNetworkConfig (privateNetwork : VagrantPrivateNetworkConfig) :
    Option Line := do
  let dhcp ← privateNetwork.dhcp
  let autoConfig ← privateNetwork.autoConfig
  some (.of (List.flatten [
    [.code "    vm.vm.network ", .quoted "private_network"],
    if dhcp then [.code ", type: ", .quoted "dhcp", .code " "] else [],
    whenFilled privateNetwork.ip fun v => [.code ", ip: ", .quoted v, .code " "],
    whenFilled privateNetwork.netmask fun v => [.code ", netmask: ", .quoted v, .code " "],
    if autoConfig then [] else [.code ", auto_config: ", boolean autoConfig, .code " "]]))

/-- A protocol that is `null` is not TCP, and is asked for its text. -/
def createVmNetworkPortForwardingConfig (portForwarding : VagrantPortForwardingConfig) :
    Option Line := do
  let protocol ← portForwarding.protocol
  let autoCorrect ← portForwarding.autoCorrect
  some (.of (List.flatten [
    [.code "    vm.vm.network ", .quoted "forwarded_port",
      .code ", guest: ", numberOrNull portForwarding.guestPort,
      .code ", host: ", numberOrNull portForwarding.hostPort],
    whenFilled portForwarding.name fun v => [.code ", id: ", .quoted v],
    if protocol ≠ .tcp then [.code ", protocol: ", .quoted protocol.text] else [],
    if autoCorrect then [.code ", auto_correct: ", boolean autoCorrect] else [],
    whenFilled portForwarding.guestIp fun v => [.code ", guest_ip: ", .quoted v],
    whenFilled portForwarding.hostIp fun v => [.code ", host_ip: ", .quoted v]]))

/-- One bridge is quoted; several are listed as they are. -/
def bridgePieces (bridges : List String) : List Piece :=
  match bridges with
  | [] => []
  | [bridge] => [.code ", bridge:", .code " ", .quoted bridge]
  | bridges => [.code ", bridge:", .code " [ ", .bare bridges, .code " ]"]

def createVmNetworkPublicNetworkConfig (publicNetwork : VagrantPublicNetworkConfig) :
    Option Line := do
  let useDhcpAssignedDefaultRoute ← publicNetwork.useDhcpAssignedDefaultRoute
  let autoConfig ← publicNetwork.autoConfig
  some (.of (List.flatten [
    [.code "    vm.vm.network ", .quoted "public_network"],
    if useDhcpAssignedDefaultRoute then
      [.code ", use_dhcp_assigned_default_route: ", boolean useDhcpAssignedDefaultRoute] else [],
    whenFilled publicNetwork.ip fun v => [.code ", ip: ", .quoted v],
    bridgePieces publicNetwork.bridges,
    if autoConfig then [] else [.code ", auto_config: ", boolean autoConfig]]))

def createVmNetworkConfig (vagrantNetworkConfig : VagrantNetworkConfig) : Option Line :=
  match vagrantNetworkConfig with
  | .privateNetwork x => createVmNetworkPrivateNetworkConfig x
  | .portForwarding x => createVmNetworkPortForwardingConfig x
  | .publicNetwork x => createVmNetworkPublicNetworkConfig x

/-! ## Synced folders -/

/-- The source writes `nfs_udp` twice. A version that is `null` is not 3,
and is asked for its text. -/
def createVmSyncedFolderNfsConfig (nfsExport nfsUdp : Option Bool) (nfsVersion : Option Int) :
    Option (List Piece) := do
  let nfsExport ← nfsExport
  let nfsUdp ← nfsUdp
  let nfsVersion ← nfsVersion
  some (List.flatten [
    if nfsExport then [] else [.code ", nfs_export: ", boolean nfsExport],
    if nfsUdp then [] else [.code ", nfs_udp : ", boolean nfsUdp],
    if nfsUdp then [] else [.code ", nfs_udp : ", boolean nfsUdp],
    if nfsVersion ≠ 3 then [.code ", nfs_version: ", .number nfsVersion] else []])

def nfsPieces : SyncedFolderClass → Option (List Piece)
  | .nfs nfsExport nfsUdp nfsVersion => createVmSyncedFolderNfsConfig nfsExport nfsUdp nfsVersion
  | _ => some []

def createVmSyncFolderConfig (syncFolder : VagrantSyncedFolderConfig) : Option Line := do
  let create ← syncFolder.create
  let disabled ← syncFolder.disabled
  let nfs ← nfsPieces syncFolder.folderClass
  some (.of (List.flatten [
    [.code "    vm.vm.synced_folder ", quotedOrNull syncFolder.hostPath, .code ", ",
      quotedOrNull syncFolder.guestPath, .code ", type: ", .quoted syncFolder.folderClass.mode,
      .code " "],
    if create then [.code ", create: ", boolean create] else [],
    if disabled then [.code ", disabled: ", boolean disabled] else [],
    whenFilled syncFolder.group fun v => [.code ", group: ", .quoted v, .code " "],
    if syncFolder.mountOptions = [] then []
      else .code ", mount_options: " :: (quotedList syncFolder.mountOptions ++ [.code " "]),
    whenFilled syncFolder.owner fun v => [.code ", owner: ", .quoted v, .code " "],
    whenFilled syncFolder.name fun v => [.code ", id: ", .quoted v, .code " "],
    nfs]))

/-! ## The provider -/

/-- The line of a setting that is neither `null` nor empty. -/
def filledLine (x : Option String) (create : String → Line) : List (Node Line) :=
  match x with
  | some v => if v = "" then [] else [.line (create v)]
  | none => []

/-- Without a name of the provider nothing else of it is read. -/
def createVmProviderConfig (provider : VagrantProviderConfig) : Option (List (Node Line)) :=
  match provider.name with
  | none => some []
  | some name =>
    if name = "" then some []
    else do
      let guiMode ← provider.guiMode
      let memory ← provider.memory
      let cpus ← provider.cpus
      some [.block (.of [.code "    vm.vm.provider ", .quoted name, .code " do |provider|"])
        (List.flatten [
          if guiMode then [.line (.of [.code "      provider.gui = ", boolean guiMode])] else [],
          if 0 < memory then
            [.line (.of [.code "      provider.memory = ", .quoted (toString memory)])] else [],
          if 0 < cpus then [.line (.of [.code "      provider.cpus = ", .number cpus])] else [],
          filledLine provider.vmName fun v => .of [.code "      provider.name = ", .quoted v],
          provider.customize.map fun customize =>
            .line ⟨[.code "      provider.customize = "], .code customize⟩])
        (.of [.code "    end"])]

/-! ## Provisioners -/

def createVmProvisionerFileConfig (provisionerFile : VagrantProvisionerFileConfig) :
    List Piece :=
  whenGiven provisionerFile.source (fun v => [.code ", source: ", .quoted v]) ++
    whenGiven provisionerFile.destination (fun v => [.code ", destination: ", .quoted v])

/-- The checksum of the script: `sha1` only when there is no `md5`. -/
def checksumPieces (md5 sha1 : Option String) : List Piece :=
  match whenFilled md5 (fun v => [.code ", md5: ", .quoted v]) with
  | [] => whenFilled sha1 (fun v => [.code ", sha1: ", .quoted v])
  | pieces => pieces

/-- The script itself, or else its path. -/
def scriptPieces (inline path : Option String) : List Piece × Tail :=
  match inline with
  | some script =>
    if script = "" then (whenGiven path (fun v => [.code ", path: ", .quoted v, .code " "]), .none)
    else ([.code ", inline: "], .script script)
  | none => (whenGiven path (fun v => [.code ", path: ", .quoted v, .code " "]), .none)

def shellPieces (provisionerShell : VagrantProvisionerShellConfig) : Option (List Piece) := do
  let binary ← provisionerShell.binary
  let privileged ← provisionerShell.privileged
  let keepColor ← provisionerShell.keepColor
  some (List.flatten [
    if provisionerShell.args = [] then []
      else .code ", args: " :: quotedList provisionerShell.args,
    if binary then [.code ", binary: ", boolean binary, .code " "] else [],
    if privileged then [] else [.code ", privileged: ", boolean privileged, .code " "],
    whenGiven provisionerShell.uploadPath
      fun v => [.code ", upload_path: ", .quoted v, .code " "],
    if keepColor then [.code ", keep_color: ", boolean keepColor, .code " "] else [],
    whenFilled provisionerShell.name fun v => [.code ", name: ", .quoted v],
    checksumPieces provisionerShell.md5 provisionerShell.sha1])

def createVmProvisionerShellConfig (provisionerShell : VagrantProvisionerShellConfig) :
    Option (List Piece × Tail) := do
  let pieces ← shellPieces provisionerShell
  some (pieces ++ (scriptPieces provisionerShell.inline provisionerShell.path).1,
    (scriptPieces provisionerShell.inline provisionerShell.path).2)

/-- A `run` that is `null` is not `ONCE`, and is asked for its text. -/
def provisionerHead (provisioner : VagrantProvisionerConfig) : Option (List Piece) := do
  let run ← provisioner.run
  let preserveOrder ← provisioner.preserveOrder
  some (List.flatten [
    [.code "    vm.vm.provision ", .quoted provisioner.provisionerClass.mode],
    if run ≠ .once then [.code ", run: ", .quoted run.text] else [],
    if preserveOrder then [.code ", preserve_order: ", boolean preserveOrder] else []])

def createVmProvisionerConfig (provisioner : VagrantProvisionerConfig) : Option Line := do
  let head ← provisionerHead provisioner
  match provisioner.provisionerClass with
  | .file x => some (.of (head ++ createVmProvisionerFileConfig x))
  | .shell x => do
    let shell ← createVmProvisionerShellConfig x
    some ⟨head ++ shell.1, shell.2⟩

/-! ## The file -/

/-- The line of a setting that may be `null`. -/
def lineOf {α : Type} (x : Option α) (create : α → Line) : List (Node Line) :=
  x.toList.map fun v => .line (create v)

/-- The source asks `boxName != 300` where it means the boot timeout, so
the timeout is always written. A timeout that is `null` is not 0. -/
def createVmInMultiEnvConfig (vmConfig : VagrantVmConfig) : Option (Node Line) := do
  let bootTimeout ← vmConfig.bootTimeout
  let boxCheckUpdate ← vmConfig.boxCheckUpdate
  let boxDownloadInsecure ← vmConfig.boxDownloadInsecure
  let boxDownloadLocationTrusted ← vmConfig.boxDownloadLocationTrusted
  let gracefulHaltTimeout ← vmConfig.gracefulHaltTimeout
  let networks ← vmConfig.vagrantNetworkConfigs.mapM createVmNetworkConfig
  let provider ← vmConfig.provider.bind createVmProviderConfig
  let provisioners ← vmConfig.vagrantProvisionerConfigs.mapM createVmProvisionerConfig
  let syncFolders ← vmConfig.vagrantSyncedFolderConfigs.mapM createVmSyncFolderConfig
  let usablePortRange ← vmConfig.usablePortRange
  some (.block (.of [.code "  config.vm.define ", quotedOrNull vmConfig.name, .code " do |vm|"])
    (List.flatten [
      [.line (createVmBootTimeoutConfig bootTimeout)],
      lineOf vmConfig.boxName createVmBoxNameConfig,
      if boxCheckUpdate then [] else [.line (createVmBoxCheckUpdateConfig boxCheckUpdate)],
      lineOf vmConfig.boxDownloadChecksum createVmBoxDownloadChecksumConfig,
      lineOf vmConfig.boxDownloadChecksumType createVmBoxDownloadChecksumTypeConfig,
      lineOf vmConfig.boxDownloadClientCert createVmBoxDownloadClientCertConfig,
      lineOf vmConfig.boxDownloadCaCert createVmBoxDownloadCaCertConfig,
      lineOf vmConfig.boxDownloadCaPath createVmBoxDownloadCaPathConfig,
      if boxDownloadInsecure then
        [.line (createVmBoxDownloadInsecureConfig boxDownloadInsecure)] else [],
      if boxDownloadLocationTrusted then
        [.line (createVmBoxDownloadLocationTrustedConfig boxDownloadLocationTrusted)] else [],
      lineOf vmConfig.boxUrl createVmBoxUrlConfig,
      lineOf vmConfig.boxVersion createVmBoxVersionConfig,
      lineOf vmConfig.communicator createVmCommunicatorConfig,
      if gracefulHaltTimeout ≠ 0 then
        [.line (createVmGracefulHaltTimeoutConfig gracefulHaltTimeout)] else [],
      lineOf vmConfig.guest createVmGuestConfig,
      lineOf vmConfig.hostName createVmHostNameConfig,
      networks.map .line,
      lineOf vmConfig.postUpMessage createVmPostUpMessageConfig,
      provider,
      provisioners.map .line,
      syncFolders.map .line,
      if usablePortRange = "2200..2250" then []
        else [.line (createVmUsablePortRangeConfig usablePortRange)]])
    (.of [.code "  end"]))

/-- The blocks and lines of the file. -/
def vagrantFile (config : VagrantEnvironmentConfig) : Option (Node Line) := do
  let vms ← config.vmConfigs.mapM createVmInMultiEnvConfig
  some (.block (.of [.code "Vagrant.configure(", .quoted "2", .code ") do |config|"]) vms
    (.of [.code "end"]))

def createVagrantFileContent (config : VagrantEnvironmentConfig) : Option String := do
  let file ← vagrantFile config
  some (render file.lines)

end Clustering.Vagrant
