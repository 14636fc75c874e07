/-
The numbers that the two ends agree on inside messages: key actions and key codes, motion actions, scroll axes and
mouse buttons. A motion action's low byte says what happened; the bits above it number the pointer concerned.
-/
namespace InputRelay

namespace KeyAction

def down : Int32 := 0
def up : Int32 := 1

end KeyAction

namespace KeyCode

def home : Int32 := 3
def back : Int32 := 4
def dpadUp : Int32 := 19
def dpadDown : Int32 := 20
def dpadLeft : Int32 := 21
def dpadRight : Int32 := 22
def dpadCenter : Int32 := 23
def enter : Int32 := 66

end KeyCode

namespace MotionAction

/-- the bits of an action that say what happened -/
def mask : Int32 := 0xff
/-- the bit at which the pointer number starts -/
def pointerIndexShift : Int32 := 8
def down : Int32 := 0
def up : Int32 := 1
def move : Int32 := 2
def cancel : Int32 := 3
def outside : Int32 := 4
def pointerDown : Int32 := 5
def pointerUp : Int32 := 6
def hoverMove : Int32 := 7
def scroll : Int32 := 8
def hoverEnter : Int32 := 9
def hoverExit : Int32 := 10
def buttonPress : Int32 := 11
def buttonRelease : Int32 := 12

end MotionAction

namespace Axis

def vertical : Int32 := 9
def horizontal : Int32 := 10

end Axis

namespace Button

def primary : Int32 := 1
def secondary : Int32 := 2
def tertiary : Int32 := 4
def back : Int32 := 8
def forward : Int32 := 16

end Button

end InputRelay
