import RemoteKeys.CommandLine.Reader
import RemoteKeys.Trace

/-!
# Two cards

A polled card whose key lines lie side by side and whose last line is a lock line, and an interrupt
driven card whose key lines are scattered. They serve where a statement is applied to a card.
-/

namespace RemoteKeys

/-- Five key lines from line 8 up, sampled twelve times a second; line 15 is set while they
change. -/
def bt848 : Setup where
  minor := 0
  mask := ⟨0x1f00, by decide⟩
  lockMask := 0x8000
  drive := .polled 12 500 0 (by decide) (by decide)
  isMinor := by decide

/-- Six key lines between lines 15 and 23, read at each interrupt. -/
def cx88 : Setup where
  minor := 1
  mask := ⟨0x0f88000, by decide⟩
  lockMask := 0x1
  drive := .interrupt 400 9 (by decide) (by decide) (by decide +kernel)
  isMinor := by decide

def bt848Config : Config := { mask := 0x1f00, lockMask := 0x8000, gapMs := 500, rate := 12 }

def cx88Config : Config :=
  { trigger := .interrupt, minor := 1, mask := 0x0f88000, lockMask := 0x1, gapMs := 400,
    width := 9 }

/-- The config file of the polled card, and a trace in which a key is held down and let go before
another one. -/
def bt848Folder : CommandLine.Reader
  | "bt848.toml" => .ok ("[gpio_ir]\ngpio_mask = 0x1f00\ngpio_lock_mask = 0x8000\n" ++
      "soft_gap = 500\nsample_rate = 12\n").toList
  | "bt848.trace" =>
    .ok "# key 21\n0 0x1500\n100 0x1500\n200 fail\n300 0x9500\n\n600 768 # key 3".toList
  | _ => .error .notFound

def bt848Trace : Trace :=
  [⟨0, some 0x1500⟩, ⟨100, some 0x1500⟩, ⟨200, none⟩, ⟨300, some 0x9500⟩, ⟨600, some 0x300⟩]

end RemoteKeys
