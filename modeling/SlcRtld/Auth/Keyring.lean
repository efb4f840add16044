import SlcRtld.Auth.Verify
import Mathlib.Data.List.DropRight
import Mathlib.Logic.Function.Basic

/-!
# The key file

`auth_keyring_load` and `auth_keygen_main` of `common/auth.c`. The file is read by `fgets` into a
buffer of a fixed size, so that what the loop sees are not the lines of the file but the pieces that
fit the buffer. Keygen appends one line to the file that the daemon will read.
-/

namespace SlcRtld.Auth

open Libc

/-- `AUTH_PSK_MAX`. -/
def authPskMax : ℕ := 256

/-- `AUTH_MAX_KEYS`. -/
def authMaxKeys : ℕ := 32

/-- The size of the buffer `line` of `auth_keyring_load`. -/
def lineSize : ℕ := authKeyIdMax + authPskMax + 16

/-- The bytes that successive calls of `fgets` on a file return, where `line` is what the current
call has read: a call ends after a newline, when the buffer is full but for the NUL, or at the end
of the file. -/
def fgetsAll (size : ℕ) : List UInt8 → List UInt8 → List (List UInt8)
  | line, [] => if line = [] then [] else [line]
  | line, c :: cs =>
    if c = 0x0a ∨ line.length + 1 = size - 1 then (line ++ [c]) :: fgetsAll size [] cs
    else fgetsAll size (line ++ [c]) cs

/-- The reasons why `auth_keyring_load` refuses a file, with the number of the line that it logs. -/
inductive KeyError where
  | unreadable
  | expected (lineno : ℕ)
  | emptySecret (lineno : ℕ) (keyId : CStr)
  | tooLong (lineno : ℕ)
deriving DecidableEq

/-- What a line holds. -/
inductive Entry where
  /-- A blank line, or a comment. -/
  | ignored
  /-- A word on its own. -/
  | noSecret
  /-- A word, and nothing after the blanks that follow it. -/
  | emptySecret (keyId : CStr)
  | key (keyId psk : CStr)
deriving DecidableEq

/-- The part of the loop that takes a line apart. -/
def readEntry (line : List UInt8) : Entry :=
  let p := (cstr line).dropWhile isSpace
  if p = [] ∨ p.head? = some 0x23 then .ignored
  else
    let p := p.rdropWhile isSpace
    let keyId := p.takeWhile fun c => !isSpace c
    match p.dropWhile fun c => !isSpace c with
    | [] => .noSecret
    | _ :: sp =>
      let psk := sp.dropWhile isSpace
      if psk = [] then .emptySecret keyId else .key keyId psk

/-- The loop of `auth_keyring_load`: the number of the line before, and the keys so far. -/
def loadLoop : List (List UInt8) → ℕ → List Key → Except KeyError (List Key)
  | [], _, keys => .ok keys
  | line :: lines, lineno, keys =>
    match readEntry line with
    | .ignored => loadLoop lines (lineno + 1) keys
    | .noSecret => .error (.expected (lineno + 1))
    | .emptySecret keyId => .error (.emptySecret (lineno + 1) keyId)
    | .key keyId psk =>
      -- a key past the last slot is not looked at any further
      if authMaxKeys ≤ keys.length then .ok keys
      else if authKeyIdMax ≤ keyId.length ∨ authPskMax ≤ psk.length then .error (.tooLong (lineno + 1))
      else loadLoop lines (lineno + 1) (keys ++ [⟨keyId, psk⟩])

/-- What is at the path of the key file. -/
inductive KeyFile where
  | absent
  | unreadable
  | content (text : List UInt8)
deriving DecidableEq

/-- `auth_keyring_load`: the keys, or the error for which it returns -1. -/
def authKeyringLoad : KeyFile → Except KeyError (List Key)
  | .absent => .ok []
  | .unreadable => .error .unreadable
  | .content text => loadLoop (fgetsAll lineSize [] text) 0 []

/-! ## Keygen -/

/-- The variables that the arguments of keygen set. -/
structure KeygenOptions where
  path : CStr
  keyId : CStr
  quiet : Bool
deriving DecidableEq

/-- The loop over the arguments: the options, or the code that it exits with, which is 0 after the
usage text and 2 for an argument that it does not know. -/
def keygenOptions : List CStr → KeygenOptions → Except ℕ KeygenOptions
  | [], o => .ok o
  | arg :: args, o =>
    if arg = bytes "--quiet" then keygenOptions args { o with quiet := true }
    else if arg = bytes "-h" ∨ arg = bytes "--help" then .error 0
    else match args with
      | [] => .error 2
      | value :: args =>
        if arg = bytes "--keys-file" then keygenOptions args { o with path := value }
        else if arg = bytes "--key-id" then keygenOptions args { o with keyId := value }
        else .error 2

/-- The check of the name: no blank, no `#`, and shorter than its buffer. -/
def keyIdAllowed (keyId : CStr) : Bool :=
  keyId.all (fun c => !isSpace c && c ≠ 0x23) && keyId.length < authKeyIdMax

/-- The loop that draws the 32 bytes of a secret: whether it succeeded, and the bytes. The outcomes
of `getrandom` are given as for `auth_make_nonce`. -/
def drawSecret : List GetRandom → List UInt8 → Option (Bool × List UInt8)
  | [], raw => if 32 ≤ raw.length then some (true, raw) else none
  | o :: os, raw =>
    if 32 ≤ raw.length then some (true, raw)
    else match o with
      | .got bs => drawSecret os (raw ++ bs.take (32 - raw.length))
      | .eintr => drawSecret os raw
      | .fail => some (false, raw)

/-- What keygen finds in its surroundings. -/
structure KeygenEnv where
  files : CStr → KeyFile
  random : List GetRandom
  /-- Whether the directory of the file is there or can be made. -/
  mkdirParent : Bool
  /-- Whether the file can be opened for writing. -/
  opens : Bool
  /-- How many bytes `write` accepts. -/
  accepts : ℕ

/-- What keygen leaves: its exit code, the secret that it has printed, and the files. -/
structure KeygenResult where
  code : ℕ
  secret : Option CStr
  files : CStr → KeyFile

/-- A file after bytes have been appended to it, which creates it if it is not there. -/
def KeyFile.append (bs : List UInt8) : KeyFile → KeyFile
  | .absent => .content bs
  | .unreadable => .unreadable
  | .content text => .content (text ++ bs)

/-- The line that keygen writes, in a buffer of `AUTH_KEY_ID_MAX + 80` bytes. -/
def keygenLine (keyId psk : CStr) : List UInt8 :=
  (keyId ++ [0x20] ++ psk ++ [0x0a]).take (authKeyIdMax + 80 - 1)

/-- `auth_keygen_main`, which does not return if `getrandom` never gives enough. -/
def authKeygenMain (args : List CStr) (defaultPath : CStr) (env : KeygenEnv) : Option KeygenResult :=
  let exit (code : ℕ) : Option KeygenResult := some ⟨code, none, env.files⟩
  match keygenOptions args ⟨defaultPath, bytes "default", false⟩ with
  | .error code => exit code
  | .ok o =>
    if !keyIdAllowed o.keyId then exit 2
    else match authKeyringLoad (env.files o.path) with
      | .error _ => exit 1
      | .ok keys =>
        if keys.any fun k => k.keyId = o.keyId then exit 1
        else do
          let (drawn, raw) ← drawSecret env.random []
          if !drawn || !env.mkdirParent || !env.opens then exit 1
          else
            let psk := authHex raw
            let line := keygenLine o.keyId psk
            let files := Function.update env.files o.path
              ((env.files o.path).append (line.take env.accepts))
            -- a short write has left part of the line in the file
            if env.accepts < line.length then return ⟨1, none, files⟩
            else return ⟨0, some psk, files⟩

end SlcRtld.Auth
