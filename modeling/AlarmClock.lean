import AlarmClock.AlarmIds
import AlarmClock.FutureAlarms
import AlarmClock.Restart
import AlarmClock.Ringing
import AlarmClock.EditSession
import AlarmClock.CalendarInvariant
import AlarmClock.AlarmServer
import AlarmClock.DismissLog
import AlarmClock.GameEngine
import AlarmClock.CameraDismiss
import AlarmClock.ReactionTime
import AlarmClock.UnstableSort
import AlarmClock.Ultrasonic
import AlarmClock.ButtonDriver
import AlarmClock.FriendFetch
import AlarmClock.Selection
import AlarmClock.Challenge
import AlarmClock.Buzzer
import AlarmClock.BuzzerStop
import AlarmClock.UntouchedEdit
import AlarmClock.UltrasonicGame
import AlarmClock.CaptureRequests
import AlarmClock.Preview
import AlarmClock.CameraResources
import AlarmClock.CameraBuffers
import AlarmClock.ColorMemory
import AlarmClock.StopPipe
import AlarmClock.LightSensor
import AlarmClock.FriendList
import AlarmClock.FrameConversion
import AlarmClock.LogViews
import AlarmClock.NumberOrder
import AlarmClock.FriendViews
import AlarmClock.ButtonGame
import AlarmClock.ButtonAlarm
import AlarmClock.AlarmSession
import AlarmClock.AlarmSound
import AlarmClock.DevTest
import AlarmClock.LightControl
import AlarmClock.UltrasonicMeasure
import AlarmClock.GameProgress
import AlarmClock.DismissDialog
import AlarmClock.RingingWindow
import AlarmClock.LogTies
import AlarmClock.LogOfRun
