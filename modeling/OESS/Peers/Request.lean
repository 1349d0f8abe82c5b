import Mathlib.Data.List.Basic
import Mathlib.Logic.Function.Basic

namespace OESS.Peers

inductive Version where
  | ipv4 | ipv6
  deriving DecidableEq

def Version.network : Version → String
  | .ipv4 => "172.31.254."
  | .ipv6 => "fd28:221e:28fa:61d3::"

def Version.mask : Version → String
  | .ipv4 => "/31"
  | .ipv6 => "/127"

/-- An address is generated from the counter of the request. -/
def generated (version : Version) (octet : Nat) : String :=
  version.network++toString octet++version.mask

/-- Patterns, short form, and the subnets given to Azure. -/
structure Net where
  Subnet : Type
  valid : Version → String → Bool
  parses : String → Bool
  short : String → String
  short_short : ∀ a,short (short a)=short a
  short_generated : ∀ version octet,0<octet → valid .ipv6 (generated version octet)=true →
    short (generated version octet)=generated version octet
  subnetFromAddress : String → Subnet
  nextSubnet : Subnet → Subnet
  ge : Subnet → Subnet → Bool
  firstSubnet : Version → Subnet
  firstAddress : Subnet → String

/-- `port` names node and interface; `azure`: whether an Azure interface is the primary one. -/
structure Site where
  id : Nat
  port : String×String
  account : Option String
  azure : Option Bool
  live : Bool

structure Peer where
  (id site : Nat)
  version : Version
  localIp : String
  active : Bool

structure Vrf where
  sites : List Site
  peers : List Peer

def Vrf.sitePeers (vrf : Vrf) (site : Site) : List Peer :=
  vrf.peers.filter fun p => p.active && p.site==site.id

def Vrf.onPort (vrf : Vrf) (port : String×String) : List Peer :=
  vrf.peers.filter fun p => p.active &&
    vrf.sites.any fun s => s.live && s.id==p.site && s.port==port

/-- `existing`: a peer to edit; `id`: that of a new one. -/
structure Peering where
  existing : Option Nat
  id : Nat
  version : Option Version
  localIp : Option String

inductive Entry where
  | new (site : Site) (peerings : List Peering)
  | existing (id : Nat) (peerings : List Peering)

/-- `completes`: what is not modelled succeeds. -/
structure Request where
  entries : List Entry
  completes : Bool

inductive Failure where
  | message (text : String)
  | database
  | died
  | incomplete

/-- Subnets in use by key, and the next free ones. -/
structure AzureConfig (net : Net) where
  subnets : String×Version×Bool → Option net.Subnet
  next : Version → net.Subnet

/-- Table and counter live as long as the request. -/
structure Run (net : Net) where
  vrf : Vrf
  table : List ((String×String)×String)
  lastOctet : Nat
  config : AzureConfig net

section Handler

variable (net : Net)

namespace AzureConfig

def start : AzureConfig net := ⟨fun _ => none,net.firstSubnet⟩

variable {net} (config : AzureConfig net)

/-- The subnet is taken; the next free one moves on. -/
def note (account : String) (primary : Bool) (p : Peer) : AzureConfig net :=
  let subnet := net.subnetFromAddress p.localIp
  ⟨Function.update config.subnets (account,p.version,primary) (some subnet),
    Function.update config.next p.version
      (if net.ge subnet (config.next p.version)=true then net.nextSubnet subnet
      else net.nextSubnet (config.next p.version))⟩

def load (vrf : Vrf) : AzureConfig net :=
  vrf.sites.foldl (fun config site =>
    match site.azure with
    | none => config
    | some primary =>
      (vrf.sitePeers site).foldl (fun config p => config.note (site.account.getD "") primary p)
        config) config

def choose (account : String) (version : Version) (primary : Bool) : net.Subnet×AzureConfig net :=
  match config.subnets (account,version,primary) with
  | some subnet => (subnet,config)
  | none =>
    (config.next version,
      ⟨Function.update config.subnets (account,version,primary) (some (config.next version)),
        Function.update config.next version (net.nextSubnet (config.next version))⟩)

end AzureConfig

namespace Net

/-- The version is read off the address if it is not given. -/
def versionOf (p : Peering) (text : String) : Version :=
  p.version.getD (if net.valid .ipv4 text=true then .ipv4 else .ipv6)

/-- An IPv6 address is stored in its short form. -/
def stored (version : Version) (text : String) : String :=
  match version with
  | .ipv4 => text
  | .ipv6 => net.short text

end Net

variable {net}

def invalidText (version : Version) (text : String) : String :=
  match version with
  | .ipv4 => "IPv4 address validation failed for '"++text++"'."
  | .ipv6 => "IPv6 address validation failed for '"++text++"'."

variable (site : Site)

def createPeer (p : Peering) (text : String) (r : Run net) : Except Failure (Run net) :=
  if net.valid (net.versionOf p text) text=false then
    .error (.message (invalidText (net.versionOf p text) text))
  else if (r.vrf.peers.any (·.id==p.id))=true then .error .database
  else
    .ok {r with vrf := {r.vrf with peers := r.vrf.peers++
      [⟨p.id,site.id,net.versionOf p text,net.stored (net.versionOf p text) text,true⟩]}}

/-- An empty text, or 0, counts as none. -/
def Peering.text (p : Peering) : String := p.localIp.getD ""

def Peering.given (p : Peering) : Bool := p.text != "" && p.text != "0"

/-- The edit compares with `==`: always IPv4. -/
def generatedVersion (isNew : Bool) (p : Peering) : Version :=
  if isNew=true∧p.version≠some .ipv4 then .ipv6 else .ipv4

/-- The table is asked for the request's text only; for an Azure peer an edit puts that text into
it, not the address. -/
def addPeering (isNew : Bool) (site : Site) (r : Run net) (p : Peering) :
    Except Failure (Run net) :=
  if (site.port,p.text)∈r.table then
    .error (.message "Cannot have duplicate local addresses on an interface.")
  else if p.given=true then
    createPeer site p p.text {r with table := (site.port,p.text)::r.table}
  else
    match site.azure with
    | some primary =>
      let chosen := r.config.choose (site.account.getD "")
        (if p.version=some .ipv4 then .ipv4 else .ipv6) primary
      let address := net.firstAddress chosen.1
      createPeer site p address {r with
        table := (site.port,if isNew=true then address else p.text)::r.table
        config := chosen.2}
    | none =>
      if site.account.getD ""="" then .ok r
      else
        let address := generated (generatedVersion isNew p) r.lastOctet
        createPeer site p address {r with
          table := (site.port,address)::r.table
          lastOctet := r.lastOctet+2}

/-- Its address is not compared with the table. -/
def updatePeering (r : Run net) (p : Peering) (id : Nat) : Except Failure (Run net) :=
  match (r.vrf.sitePeers site).find? fun q => q.id==id with
  | none => .ok r
  | some q =>
    let text := p.localIp.getD q.localIp
    if q.version=.ipv6∧net.parses text=false then .error .died
    else
      .ok {r with vrf := {r.vrf with peers := r.vrf.peers.map fun q' =>
        if q'.id=id then {q' with localIp := net.stored q.version text} else q'}}

def editPeering (r : Run net) (p : Peering) : Except Failure (Run net) :=
  match p.existing with
  | none => addPeering false site r p
  | some id => updatePeering site r p id

variable (vrf : Vrf)

def Vrf.decomPeers (ids : List Nat) : Vrf :=
  {vrf with peers := vrf.peers.map fun p => if p.id∈ids then {p with active := false} else p}

/-- The peers of the endpoint that the entry does not name. -/
def unnamedPeers (loaded : List Peer) (peerings : List Peering) : List Nat :=
  (loaded.map Peer.id).filter fun id => !(peerings.any (·.existing==some id))

def addEndpoint (peerings : List Peering) (r : Run net) : Except Failure (Run net) :=
  if (r.vrf.sites.any (·.id==site.id))=true∨(r.vrf.peers.any (·.site==site.id))=true then
    .error .database
  else
    peerings.foldlM (addPeering true site)
      {r with vrf := {r.vrf with sites := r.vrf.sites++[{site with live := true}]}}

def editEndpoint (id : Nat) (peerings : List Peering) (r : Run net) : Except Failure (Run net) :=
  match r.vrf.sites.find? fun s => s.live && s.id==id with
  | none => .error .died
  | some site =>
    match peerings.foldlM (editPeering site) r with
    | .error failure => .error failure
    | .ok r' =>
      .ok {r' with vrf := r'.vrf.decomPeers (unnamedPeers (r.vrf.sitePeers site) peerings)}

def entryStep (r : Run net) : Entry → Except Failure (Run net)
  | .new site peerings => addEndpoint site peerings r
  | .existing id peerings => editEndpoint id peerings r

/-- Loaded and not named by the request. -/
def Vrf.unnamedSites (req : Request) : List Nat :=
  ((vrf.sites.filter Site.live).map Site.id).filter fun id => !(req.entries.any fun e =>
    match e with
    | .new _ _ => false
    | .existing id' _ => id'==id)

/-- An endpoint is removed with its peers. -/
def Vrf.removeSites (ids : List Nat) : Vrf :=
  ⟨vrf.sites.filter fun s => !ids.contains s.id,vrf.peers.filter fun p => !ids.contains p.site⟩

variable (net)

/-- Nothing is loaded for a new VRF. -/
def provisionVrf (req : Request) (vrf : Vrf) : Except Failure Vrf :=
  match req.entries.foldlM entryStep (⟨vrf,[],2,(AzureConfig.start net).load vrf⟩ : Run net) with
  | .error failure => .error failure
  | .ok r => if req.completes=true then .ok (r.vrf.removeSites (vrf.unnamedSites req))
    else .error .incomplete

/-- A request that fails leaves the VRF as it was. -/
def serve (req : Request) : Vrf :=
  match provisionVrf net req vrf with
  | .ok vrf' => vrf'
  | .error _ => vrf

end Handler

end OESS.Peers
