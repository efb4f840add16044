import SlcRtld.Libc.Text

/-!
# The mDNS responder

`common/mdns_builtin.c`: the encoder of responses and the reader of queries. A packet that is being
built is the bytes up to `pos`; the patches of the lengths go back into them. Patches outside of
them are made only in packets that have overflown, which are not sent, and are left out.

The reader takes its bytes from the received buffer of `len` bytes. A read outside of it has no
result (the outer `Option`); `return false` is the inner one.
-/

namespace SlcRtld.Mdns

open Libc

/-- `MDNS_TTL`. -/
def mdnsTtl : UInt32 := 120

/-- `SLC_SERVICE_TYPE`. -/
def slcServiceType : CStr := bytes "_sdr-slc._tcp"

/-- `DNS_TYPE_A`. -/
def dnsTypeA : UInt16 := 1

/-- `DNS_TYPE_PTR`. -/
def dnsTypePtr : UInt16 := 12

/-- `DNS_TYPE_TXT`. -/
def dnsTypeTxt : UInt16 := 16

/-- `DNS_TYPE_SRV`. -/
def dnsTypeSrv : UInt16 := 33

/-- `DNS_TYPE_ANY`. -/
def dnsTypeAny : UInt16 := 255

/-- `DNS_CLASS_IN`. -/
def dnsClassIn : UInt16 := 1

/-- `DNS_CACHE_FLUSH`. -/
def dnsCacheFlush : UInt16 := 0x8000

/-- The variables that responses are made from. -/
structure Responder where
  /-- `s_instance`. -/
  instanceName : CStr
  /-- `s_ip`. -/
  ip : UInt32
  /-- `s_port`. -/
  port : UInt16
  /-- `s_txt`, of which there are `s_ntxt`. -/
  txt : List CStr

/-- `mdns_txt_t`. -/
structure MdnsTxt where
  name : CStr
  proto : CStr
  protoVer : CStr
  functions : CStr
  hw : CStr
  fw : CStr
  minhz : UInt64
  maxhz : UInt64

/-- The `s_addr` of an address, which is in network order, as a number of a little-endian
machine. -/
def sAddr (a b c d : UInt8) : UInt32 :=
  UInt32.ofNat (a.toNat + 2 ^ 8 * b.toNat + 2 ^ 16 * c.toNat + 2 ^ 24 * d.toNat)

/-- The variables after `mdns_builtin_start`, with the address that `read_ipv4` has found. -/
def mdnsBuiltinStart (instanceName : CStr) (port : UInt16) (txt : MdnsTxt) (ip : UInt32) :
    Responder where
  instanceName := snprintf 64 instanceName
  ip := ip
  port := port
  txt :=
    [bytes "name=" ++ txt.name, bytes "proto=" ++ txt.proto, bytes "proto_ver=" ++ txt.protoVer,
      bytes "functions=" ++ txt.functions, bytes "hw=" ++ txt.hw, bytes "fw=" ++ txt.fw,
      bytes "minhz=" ++ fmtUnsigned txt.minhz.toNat, bytes "maxhz=" ++ fmtUnsigned txt.maxhz.toNat].map
        (snprintf 160)

/-! ## Building a packet -/

/-- `DNS`: the bytes of `buf` up to `pos`. -/
structure DNS where
  buf : List UInt8
  overflow : Bool

/-- The size of `buf`. -/
def dnsBufSize : ℕ := 1024

/-- `dns_init`. -/
def dnsInit : DNS := ⟨List.replicate 12 0, false⟩

/-- `dns_put8`. -/
def dnsPut8 (v : UInt8) (d : DNS) : DNS :=
  if d.buf.length < dnsBufSize then { d with buf := d.buf ++ [v] } else { d with overflow := true }

/-- `dns_put16`. -/
def dnsPut16 (v : UInt16) (d : DNS) : DNS := dnsPut8 (v &&& 0xff).toUInt8 (dnsPut8 (v >>> 8).toUInt8 d)

/-- `dns_put32`. -/
def dnsPut32 (v : UInt32) (d : DNS) : DNS :=
  dnsPut16 (v &&& 0xffff).toUInt16 (dnsPut16 (v >>> 16).toUInt16 d)

/-- A loop of `dns_put8`. -/
def dnsPutAll (vs : List UInt8) (d : DNS) : DNS := vs.foldl (fun d v => dnsPut8 v d) d

/-- The loop of `dns_name`, with the bytes since the last dot. What follows the last dot is left
out. -/
def dnsNameLoop : CStr → CStr → DNS → DNS
  | _, [], d => d
  | label, c :: cs, d =>
    if c = 0x2e then dnsNameLoop [] cs (dnsPutAll label (dnsPut8 label.length.toUInt8 d))
    else dnsNameLoop (label ++ [c]) cs d

/-- `dns_name`: the offset that the name starts at. -/
def dnsName (name : CStr) (d : DNS) : ℕ × DNS := (d.buf.length, dnsPut8 0 (dnsNameLoop [] name d))

/-- `dns_ptr`. -/
def dnsPtr (off : ℕ) (d : DNS) : DNS :=
  dnsPut8 (off &&& 0xff).toUInt8 (dnsPut8 (0xc0 ||| off >>> 8).toUInt8 d)

/-- `dns_patch_rdlen`. -/
def dnsPatchRdlen (rdlenPos : ℕ) (d : DNS) : DNS :=
  let rdlen := d.buf.length - rdlenPos - 2
  { d with buf := (d.buf.set rdlenPos (rdlen >>> 8).toUInt8).set (rdlenPos + 1) (rdlen &&& 0xff).toUInt8 }

/-- The owner that `dns_rr` writes: a pointer, or the name. An offset below zero is none. -/
def dnsOwner (nameOff : Option ℕ) (name : CStr) (d : DNS) : DNS :=
  match nameOff with
  | some off => dnsPtr off d
  | none => (dnsName name d).2

/-- `dns_rr`: the position of the length. -/
def dnsRr (nameOff : Option ℕ) (name : CStr) (type cls : UInt16) (ttl : UInt32) (d : DNS) : ℕ × DNS :=
  let d := dnsPut32 ttl (dnsPut16 cls (dnsPut16 type (dnsOwner nameOff name d)))
  (d.buf.length, dnsPut16 0 d)

/-! ## Responses -/

/-- `R_PTR`. -/
def rPtr : ℕ := 1

/-- `R_SRV`. -/
def rSrv : ℕ := 2

/-- `R_TXT`. -/
def rTxt : ℕ := 4

/-- `R_A`. -/
def rA : ℕ := 8

/-- `R_ALL`. -/
def rAll : ℕ := 15

/-- What `send_records` has built so far: the packet, `ancount`, `inst_off` and `host_off`. -/
structure Building where
  d : DNS
  ancount : ℕ
  instOff : Option ℕ
  hostOff : Option ℕ

namespace Responder

variable (r : Responder)

/-- `svc_type`. -/
def svcType : CStr := snprintf 32 (slcServiceType ++ bytes ".local.")

/-- `inst_fqdn`. -/
def instFqdn : CStr := snprintf 96 (r.instanceName ++ bytes "." ++ slcServiceType ++ bytes ".local.")

/-- `host_fqdn`. -/
def hostFqdn : CStr := snprintf 80 (r.instanceName ++ bytes ".local.")

/-- The `R_PTR` branch. -/
def putPtr (ttl : UInt32) (b : Building) : Building :=
  let rr := dnsRr none svcType dnsTypePtr dnsClassIn ttl b.d
  let target := dnsName r.instFqdn rr.2
  { b with d := dnsPatchRdlen rr.1 target.2, ancount := b.ancount + 1, instOff := some target.1 }

/-- The `R_SRV` branch. -/
def putSrv (ttl : UInt32) (b : Building) : Building :=
  let nameAt := b.d.buf.length
  let rr := dnsRr b.instOff r.instFqdn dnsTypeSrv (dnsClassIn ||| dnsCacheFlush) ttl b.d
  let target := dnsName r.hostFqdn (dnsPut16 r.port (dnsPut16 0 (dnsPut16 0 rr.2)))
  { b with
    d := dnsPatchRdlen rr.1 target.2
    ancount := b.ancount + 1
    instOff := some (b.instOff.getD nameAt)
    hostOff := some target.1 }

/-- The strings of the `R_TXT` branch. -/
def putStrings (d : DNS) : DNS := r.txt.foldl (fun d s => dnsPutAll s (dnsPut8 s.length.toUInt8 d)) d

/-- The `R_TXT` branch. -/
def putTxt (ttl : UInt32) (b : Building) : Building :=
  let nameAt := b.d.buf.length
  let rr := dnsRr b.instOff r.instFqdn dnsTypeTxt (dnsClassIn ||| dnsCacheFlush) ttl b.d
  { b with
    d := dnsPatchRdlen rr.1 (r.putStrings rr.2)
    ancount := b.ancount + 1
    instOff := some (b.instOff.getD nameAt) }

/-- The address of the `R_A` branch. -/
def putAddress (d : DNS) : DNS :=
  dnsPut8 (r.ip >>> 24).toUInt8
    (dnsPut8 (r.ip >>> 16).toUInt8 (dnsPut8 (r.ip >>> 8).toUInt8 (dnsPut8 r.ip.toUInt8 d)))

/-- The `R_A` branch. -/
def putA (ttl : UInt32) (b : Building) : Building :=
  let rr := dnsRr b.hostOff r.hostFqdn dnsTypeA (dnsClassIn ||| dnsCacheFlush) ttl b.d
  { b with d := dnsPatchRdlen rr.1 (r.putAddress rr.2), ancount := b.ancount + 1 }

/-- The records of `send_records`. -/
def build (which : ℕ) (ttl : UInt32) : Building :=
  let b : Building := ⟨dnsInit, 0, none, none⟩
  let b := if which &&& rPtr ≠ 0 then r.putPtr ttl b else b
  let b := if which &&& rSrv ≠ 0 then r.putSrv ttl b else b
  let b := if which &&& rTxt ≠ 0 then r.putTxt ttl b else b
  if which &&& rA ≠ 0 then r.putA ttl b else b

/-- `send_records` on an open socket: the packet that is handed to `sendto`, if it is. -/
def sendRecords (which : ℕ) (ttl : UInt32) : Option (List UInt8) :=
  let b := r.build which ttl
  let buf := (b.d.buf.set 2 0x84).set 3 0x00
  let buf := (buf.set 6 (b.ancount >>> 8).toUInt8).set 7 b.ancount.toUInt8
  if b.d.overflow then none else some buf

end Responder

/-! ## Queries -/

/-- `memcpy` from the received packet. -/
def fetch (buf : List UInt8) (p n : ℕ) : Option (List UInt8) :=
  if p + n ≤ buf.length then some ((buf.drop p).take n) else none

/-- What is in a buffer of `cap` bytes after more bytes have been written behind `out`. -/
def store (cap : ℕ) (out bs : CStr) : Option CStr :=
  if out.length + bs.length ≤ cap then some (out ++ bs) else none

/-- The end of `dns_read_name`: the name and the position behind it. -/
def readNameEnd (cap pos : ℕ) (out : CStr) : Option (Option (CStr × ℕ)) := do
  let _ ← store cap out [0]
  return some (out, pos)

/-- The loop of `dns_read_name`, which runs as often as `guard` allows. `pos` is the position behind
the first pointer, once one has been followed. -/
def readNameLoop (buf : List UInt8) (cap : ℕ) :
    ℕ → ℕ → Option ℕ → CStr → Option (Option (CStr × ℕ))
  | 0, p, pos, out => readNameEnd cap (pos.getD p) out
  | guard + 1, p, pos, out =>
    if buf.length ≤ p then some none
    else do
      let l ← buf[p]?
      if l = 0 then readNameEnd cap (pos.getD (p + 1)) out
      else if l &&& 0xc0 = 0xc0 then
        if buf.length ≤ p + 1 then some none
        else do
          let lo ← buf[p + 1]?
          let target := (l &&& 0x3f).toNat <<< 8 ||| lo.toNat
          readNameLoop buf cap guard target (some (pos.getD (p + 2))) out
      else if buf.length < p + 1 + l.toNat then some none
      else if cap < out.length + l.toNat + 2 then some none
      else do
        let out ← if out = [] then some out else store cap out [0x2e]
        let label ← fetch buf (p + 1) l.toNat
        let out ← store cap out label
        readNameLoop buf cap guard (p + 1 + l.toNat) pos out

/-- `dns_read_name` from a position. -/
def dnsReadName (buf : List UInt8) (pos cap : ℕ) : Option (Option (CStr × ℕ)) :=
  readNameLoop buf cap 64 pos none []

/-- Whether `strcasecmp` finds no difference between what is in two buffers. -/
def sameCaseless (a b : CStr) : Bool := (cstr a).map toLower = (cstr b).map toLower

/-- The name of the services enumeration. -/
def servicesName : CStr := bytes "_services._dns-sd._udp.local"

namespace Responder

variable (r : Responder)

/-- `svc` of `records_for_query`. -/
def svc : CStr := snprintf 64 (slcServiceType ++ bytes ".local")

/-- `inst` of `records_for_query`. -/
def inst : CStr := snprintf 128 (r.instanceName ++ bytes "." ++ slcServiceType ++ bytes ".local")

/-- `host` of `records_for_query`. -/
def host : CStr := snprintf 96 (r.instanceName ++ bytes ".local")

/-- The records that one question asks for. -/
def recordsForQuestion (name : CStr) (qtype : ℕ) : ℕ :=
  let any := qtype = dnsTypeAny.toNat
  if sameCaseless name svc ∧ (any ∨ qtype = dnsTypePtr.toNat) then rAll
  else if sameCaseless name servicesName ∧ (any ∨ qtype = dnsTypePtr.toNat) then rAll
  else if sameCaseless name r.inst then
    (if any ∨ qtype = dnsTypeSrv.toNat then rSrv ||| rA else 0) |||
      (if any ∨ qtype = dnsTypeTxt.toNat then rTxt else 0)
  else if sameCaseless name r.host ∧ (any ∨ qtype = dnsTypeA.toNat) then rA
  else 0

end Responder

/-- A question as it has been read: where it starts, its name and its type. -/
structure Asked where
  start : ℕ
  name : CStr
  qtype : ℕ

/-- The questions that the loop of `records_for_query` reads. -/
def readQuestions (buf : List UInt8) : ℕ → ℕ → Option (List Asked)
  | 0, _ => some []
  | n + 1, start => do
    match ← dnsReadName buf start 256 with
    | none => return []
    | some (name, pos) =>
      if buf.length < pos + 4 then return []
      else
        let hi ← buf[pos]?
        let lo ← buf[pos + 1]?
        let qs ← readQuestions buf n (pos + 4)
        return ⟨start, name, hi.toNat <<< 8 ||| lo.toNat⟩ :: qs

/-- The questions that `records_for_query` reads from a received packet. -/
def queryQuestions (buf : List UInt8) : Option (List Asked) :=
  if buf.length < 12 then some []
  else do
    let flags ← buf[2]?
    if flags &&& 0x80 ≠ 0 then return []
    else
      let hi ← buf[4]?
      let lo ← buf[5]?
      let qd := hi.toNat <<< 8 ||| lo.toNat
      if qd = 0 then return [] else readQuestions buf qd 12

/-- `records_for_query`. -/
def Responder.recordsForQuery (r : Responder) (buf : List UInt8) : Option ℕ := do
  let qs ← queryQuestions buf
  return qs.foldl (fun which q => which ||| r.recordsForQuestion q.name q.qtype) 0

/-- What `responder_thread` does with a received packet: the response, if it sends one. -/
def Responder.respond (r : Responder) (buf : List UInt8) : Option (Option (List UInt8)) := do
  let which ← r.recordsForQuery buf
  return if which ≠ 0 then r.sendRecords which mdnsTtl else none

end SlcRtld.Mdns
